import Mathlib.Algebra.BigOperators.Group.List.Basic
import Mathlib.Algebra.GroupWithZero.Nat
import Mathlib.Logic.Function.Iterate
import Mathlib.Algebra.Order.BigOperators.Group.List

/-!
# Round-robin collection under an output cap

Several walkers are polled in turn, one answer each per round, into one output of at most `cap`
entries. A walker that has given its last answer stays in the list and is skipped. The rounds stop
after `maxRounds` of them or once the output is full, whichever comes first:

```
for (round = 0; round < maxRounds && out < cap; round++)
    for each walker, while out < cap: append its next answer, if it has one
```

Walkers are abstract: `advance w` is the next answer and the walker after it, or `none` once `w` has
ended, and `life w` counts the answers `w` has left (`Lifespan`).

Two questions are settled here. The first is when every round that starts also appends something. It
does not once all walkers have ended while the output still has room and rounds are left;
`progress_iff` says that this is the only way, in terms of the lives at the start, and
`round_le_of_progress` draws the consequence for the number of rounds. The second is what the loop
collects: `out_run` says that it is the walkers' answers row by row, cut off at the cap, and
`filterMap_tag_rows` picks one walker's answers out of it.
-/

namespace RoundRobin

variable {ω β : Type*}

/-- `life` counts the answers a walker has left. -/
def Lifespan (advance : ω → Option (β × ω)) (life : ω → ℕ) : Prop :=
  ∀ w, match advance w with
    | none => life w = 0
    | some (_, w') => life w = life w' + 1

section Defs

variable (advance : ω → Option (β × ω)) (cap : ℕ)

/-- One round: every walker in turn, as long as the output has room. -/
def pass : List ω → List β → List ω × List β
  | [], out => ([], out)
  | w :: ws, out =>
    if out.length < cap then
      match advance w with
      | none =>
        let r := pass ws out
        (w :: r.1, r.2)
      | some (b, w') =>
        let r := pass ws (out ++ [b])
        (w' :: r.1, r.2)
    else (w :: ws, out)

/-- The state at the head of the outer loop. -/
structure Loop (ω β : Type*) where
  round : ℕ
  walkers : List ω
  out : List β

/-- The body of the outer loop. -/
def Loop.step (l : Loop ω β) : Loop ω β :=
  let r := pass advance cap l.walkers l.out
  { round := l.round + 1, walkers := r.1, out := r.2 }

/-- The condition of the outer loop. -/
def Loop.Guard (maxRounds : ℕ) (l : Loop ω β) : Prop :=
  l.round < maxRounds ∧ l.out.length < cap

instance (maxRounds : ℕ) (l : Loop ω β) : Decidable (l.Guard cap maxRounds) :=
  inferInstanceAs (Decidable (_ ∧ _))

/-- The outer loop, for at most `fuel` rounds. -/
def Loop.run (maxRounds : ℕ) : ℕ → Loop ω β → Loop ω β
  | 0, l => l
  | fuel + 1, l =>
    if l.Guard cap maxRounds then Loop.run maxRounds fuel (l.step advance cap) else l

/-- `l` is reached at the head of the outer loop, started at `l₀`. -/
def Loop.Head (maxRounds : ℕ) (l₀ l : Loop ω β) : Prop :=
  ∃ k, l = (Loop.step advance cap)^[k] l₀ ∧
    ∀ i < k, ((Loop.step advance cap)^[i] l₀).Guard cap maxRounds

end Defs

variable {advance : ω → Option (β × ω)} {life : ω → ℕ} {cap maxRounds : ℕ}

namespace Lifespan

theorem eq_zero (hlife : Lifespan advance life) {w : ω} (h : advance w = none) : life w = 0 := by
  have := hlife w
  rwa [h] at this

theorem eq_succ (hlife : Lifespan advance life) {w w' : ω} {b : β}
    (h : advance w = some (b, w')) : life w = life w' + 1 := by
  have := hlife w
  rwa [h] at this

end Lifespan

/-! ### One round -/

theorem pass_nil (out : List β) : pass advance cap [] out = ([], out) := rfl

theorem pass_full {ws : List ω} {out : List β} (h : cap ≤ out.length) :
    pass advance cap ws out = (ws, out) := by
  cases ws with
  | nil => rfl
  | cons w ws => simp [pass, Nat.not_lt.2 h]

theorem pass_cons_none {w : ω} {ws : List ω} {out : List β} (hroom : out.length < cap)
    (h : advance w = none) :
    pass advance cap (w :: ws) out =
      (w :: (pass advance cap ws out).1, (pass advance cap ws out).2) := by
  simp [pass, hroom, h]

theorem pass_cons_some {w w' : ω} {b : β} {ws : List ω} {out : List β}
    (hroom : out.length < cap) (h : advance w = some (b, w')) :
    pass advance cap (w :: ws) out =
      (w' :: (pass advance cap ws (out ++ [b])).1, (pass advance cap ws (out ++ [b])).2) := by
  simp [pass, hroom, h]

/-- A round never takes anything out of the output. -/
theorem prefix_pass (ws : List ω) (out : List β) : out <+: (pass advance cap ws out).2 := by
  induction ws generalizing out with
  | nil => exact List.prefix_refl out
  | cons w ws ih =>
    by_cases hroom : out.length < cap
    · rcases hw : advance w with - | ⟨b, w'⟩
      · rw [pass_cons_none hroom hw]
        exact ih out
      · rw [pass_cons_some hroom hw]
        exact (List.prefix_append out [b]).trans (ih _)
    · simp only [pass_full (Nat.not_lt.1 hroom), List.prefix_rfl]

/-- A round keeps its walkers. -/
theorem length_fst_pass (ws : List ω) (out : List β) :
    (pass advance cap ws out).1.length = ws.length := by
  induction ws generalizing out with
  | nil => rfl
  | cons w ws ih =>
    rcases Nat.lt_or_ge out.length cap with hroom | hfull
    · rcases hw : advance w with - | ⟨b, w'⟩
      · rw [pass_cons_none hroom hw, List.length_cons, List.length_cons, ih]
      · rw [pass_cons_some hroom hw, List.length_cons, List.length_cons, ih]
    · rw [pass_full hfull]

theorem le_length_pass (ws : List ω) (out : List β) :
    out.length ≤ (pass advance cap ws out).2.length :=
  (prefix_pass ws out).length_le

theorem length_pass_le {ws : List ω} {out : List β} (h : out.length ≤ cap) :
    (pass advance cap ws out).2.length ≤ cap := by
  induction ws generalizing out with
  | nil => exact h
  | cons w ws ih =>
    by_cases hroom : out.length < cap
    · rcases hw : advance w with - | ⟨b, w'⟩
      · rw [pass_cons_none hroom hw]
        exact ih h
      · rw [pass_cons_some hroom hw]
        exact ih (by rw [List.length_append]; exact hroom)
    · rwa [pass_full (Nat.not_lt.1 hroom)]

/-- A round that starts with room and a live walker appends something. -/
theorem length_lt_length_pass (hlife : Lifespan advance life) {ws : List ω} {out : List β}
    (hroom : out.length < cap) (hlive : ∃ w ∈ ws, life w ≠ 0) :
    out.length < (pass advance cap ws out).2.length := by
  induction ws with
  | nil => simp at hlive
  | cons w ws ih =>
    rcases hw : advance w with - | ⟨b, w'⟩
    · rw [pass_cons_none hroom hw]
      refine ih ?_
      obtain ⟨v, hv, hne⟩ := hlive
      rcases List.mem_cons.1 hv with rfl | hv
      · exact absurd (hlife.eq_zero hw) hne
      · exact ⟨v, hv, hne⟩
    · rw [pass_cons_some hroom hw]
      have hle : (out ++ [b]).length ≤ (pass advance cap ws (out ++ [b])).2.length :=
        le_length_pass ws (out ++ [b])
      rw [List.length_append, List.length_singleton] at hle
      exact hle

/-- A round over walkers that have all ended changes nothing. -/
theorem pass_of_dead (hlife : Lifespan advance life) {ws : List ω} {out : List β}
    (hdead : ∀ w ∈ ws, life w = 0) : pass advance cap ws out = (ws, out) := by
  induction ws with
  | nil => rfl
  | cons w ws ih =>
    by_cases hroom : out.length < cap
    · rcases hw : advance w with - | ⟨b, w'⟩
      · rw [pass_cons_none hroom hw, ih fun v hv ↦ hdead v (List.mem_cons_of_mem w hv)]
      · have h0 := hdead w List.mem_cons_self
        have h1 := hlife.eq_succ hw
        omega
    · exact pass_full (Nat.not_lt.1 hroom)

/-- A round that leaves room polled every walker: each live one gave one answer. -/
theorem map_life_pass (hlife : Lifespan advance life) {ws : List ω} {out : List β}
    (hroom : (pass advance cap ws out).2.length < cap) :
    (pass advance cap ws out).1.map life = ws.map (fun w ↦ life w - 1) ∧
      (pass advance cap ws out).2.length + (ws.map fun w ↦ life w - 1).sum =
        out.length + (ws.map life).sum := by
  induction ws generalizing out with
  | nil => simp [pass_nil]
  | cons w ws ih =>
    have hlt : out.length < cap := (le_length_pass _ _).trans_lt hroom
    rcases hw : advance w with - | ⟨b, w'⟩
    · rw [pass_cons_none hlt hw] at hroom ⊢
      obtain ⟨hmap, hsum⟩ := ih hroom
      have h0 := hlife.eq_zero hw
      simp only [List.map_cons, hmap, List.sum_cons, h0]
      refine ⟨by simp, by simpa using hsum⟩
    · rw [pass_cons_some hlt hw] at hroom ⊢
      obtain ⟨hmap, hsum⟩ := ih hroom
      have h1 := hlife.eq_succ hw
      simp only [List.length_append, List.length_singleton] at hsum
      simp only [List.map_cons, hmap, List.sum_cons, h1]
      refine ⟨by simp, by omega⟩

/-- A round appends at most what the walkers have left. -/
theorem length_pass_le_add (hlife : Lifespan advance life) (ws : List ω) (out : List β) :
    (pass advance cap ws out).2.length ≤ out.length + (ws.map life).sum := by
  induction ws generalizing out with
  | nil => simp [pass_nil]
  | cons w ws ih =>
    rw [List.map_cons, List.sum_cons]
    by_cases hroom : out.length < cap
    · rcases hw : advance w with - | ⟨b, w'⟩
      · rw [pass_cons_none hroom hw]
        exact (ih out).trans (by omega)
      · rw [pass_cons_some hroom hw]
        have h1 := hlife.eq_succ hw
        refine (ih (out ++ [b])).trans ?_
        rw [List.length_append, List.length_singleton]
        omega
    · rw [pass_full (Nat.not_lt.1 hroom)]
      exact Nat.le_add_right _ _

/-! ### The heads of the outer loop -/

namespace Loop

variable {l₀ l : Loop ω β}

theorem iterate_succ_step (k : ℕ) :
    (step advance cap)^[k + 1] l₀ = ((step advance cap)^[k] l₀).step advance cap :=
  Function.iterate_succ_apply' _ _ _

theorem round_iterate (k : ℕ) : ((step advance cap)^[k] l₀).round = l₀.round + k := by
  induction k with
  | zero => rfl
  | succ k ih => rw [iterate_succ_step, step, ih, Nat.add_assoc]

theorem length_out_iterate_mono {j k : ℕ} (h : j ≤ k) :
    ((step advance cap)^[j] l₀).out.length ≤ ((step advance cap)^[k] l₀).out.length := by
  induction k, h using Nat.le_induction with
  | base => exact Nat.le_refl _
  | succ k _ ih =>
    rw [iterate_succ_step]
    exact ih.trans (le_length_pass _ _)

/-- **The state at a head that still has room**, in terms of the lives at the start: `k` rounds
have taken `min k life` answers from every walker. -/
theorem iterate_of_room (hlife : Lifespan advance life) {k : ℕ}
    (hroom : ((step advance cap)^[k] l₀).out.length < cap) :
    ((step advance cap)^[k] l₀).walkers.map life = l₀.walkers.map (fun w ↦ life w - k) ∧
      ((step advance cap)^[k] l₀).out.length + (l₀.walkers.map fun w ↦ life w - k).sum =
        l₀.out.length + (l₀.walkers.map life).sum := by
  induction k with
  | zero => simp
  | succ k ih =>
    obtain ⟨hmap, hsum⟩ := ih ((length_out_iterate_mono (Nat.le_succ k)).trans_lt hroom)
    rw [iterate_succ_step] at hroom ⊢
    obtain ⟨hmap', hsum'⟩ := map_life_pass hlife hroom
    have hpred : (((step advance cap)^[k] l₀).walkers.map fun w ↦ life w - 1) =
        l₀.walkers.map fun w ↦ life w - (k + 1) := by
      calc (((step advance cap)^[k] l₀).walkers.map fun w ↦ life w - 1)
          = (((step advance cap)^[k] l₀).walkers.map life).map (· - 1) := by
            rw [List.map_map]; rfl
        _ = (l₀.walkers.map fun w ↦ life w - k).map (· - 1) := by rw [hmap]
        _ = l₀.walkers.map fun w ↦ life w - (k + 1) := by
            rw [List.map_map]
            exact List.map_congr_left fun w _ ↦ Nat.sub_sub _ _ _
    rw [hpred] at hmap' hsum'
    rw [hmap] at hsum'
    refine ⟨hmap', ?_⟩
    calc _ = ((step advance cap)^[k] l₀).out.length + (l₀.walkers.map fun w ↦ life w - k).sum :=
          hsum'
      _ = _ := hsum

/-- At a head with room, some walker is alive exactly when some life exceeds the rounds taken. -/
theorem exists_live_iterate_iff (hlife : Lifespan advance life) {k : ℕ}
    (hroom : ((step advance cap)^[k] l₀).out.length < cap) :
    (∃ w ∈ ((step advance cap)^[k] l₀).walkers, life w ≠ 0) ↔ ∃ w ∈ l₀.walkers, k < life w := by
  have hmap := (iterate_of_room hlife hroom).1
  have hmem : ∀ n, n ∈ ((step advance cap)^[k] l₀).walkers.map life ↔
      n ∈ l₀.walkers.map fun w ↦ life w - k := fun n ↦ by rw [hmap]
  simp only [List.mem_map] at hmem
  constructor
  · rintro ⟨w, hw, hne⟩
    obtain ⟨v, hv, heq⟩ := (hmem (life w)).1 ⟨w, hw, rfl⟩
    exact ⟨v, hv, by omega⟩
  · rintro ⟨w, hw, hlt⟩
    obtain ⟨v, hv, heq⟩ := (hmem (life w - k)).2 ⟨w, hw, rfl⟩
    exact ⟨v, hv, by omega⟩

theorem head_start : Head advance cap maxRounds l₀ l₀ :=
  ⟨0, rfl, fun _ h ↦ absurd h (Nat.not_lt_zero _)⟩

theorem Head.step (h : Head advance cap maxRounds l₀ l) (hg : l.Guard cap maxRounds) :
    Head advance cap maxRounds l₀ (l.step advance cap) := by
  obtain ⟨k, rfl, hk⟩ := h
  refine ⟨k + 1, (iterate_succ_step k).symm, fun i hi ↦ ?_⟩
  rcases Nat.lt_succ_iff_lt_or_eq.1 hi with hi | rfl
  · exact hk i hi
  · exact hg

theorem length_out_le_of_head (h0 : l₀.out.length ≤ cap)
    (h : Head advance cap maxRounds l₀ l) : l.out.length ≤ cap := by
  obtain ⟨k, rfl, hk⟩ := h
  cases k with
  | zero => exact h0
  | succ k =>
    rw [iterate_succ_step]
    exact length_pass_le (hk k (Nat.lt_succ_self k)).2.le

/-- The result of the loop is a head, reached after as many rounds as its counter says. -/
theorem head_run (fuel : ℕ) (h : Head advance cap maxRounds l₀ l) :
    Head advance cap maxRounds l₀ (run advance cap maxRounds fuel l) := by
  induction fuel generalizing l with
  | zero => exact h
  | succ fuel ih =>
    rw [run]
    split
    · next hg => exact ih (h.step hg)
    · exact h

/-- With a round of fuel for every round the counter still allows, the loop ends at its
condition, not for want of fuel. -/
theorem not_guard_run {fuel : ℕ} (h : maxRounds ≤ l.round + fuel) :
    ¬ (run advance cap maxRounds fuel l).Guard cap maxRounds := by
  induction fuel generalizing l with
  | zero =>
    intro hg
    have := hg.1
    rw [run] at this
    omega
  | succ fuel ih =>
    rw [run]
    split
    · exact ih (by rw [Loop.step]; simp only; omega)
    · assumption

/-- Every round that starts appends something. -/
def Progress (advance : ω → Option (β × ω)) (cap maxRounds : ℕ) (l₀ : Loop ω β) : Prop :=
  ∀ l, Head advance cap maxRounds l₀ l → l.Guard cap maxRounds →
    l.out.length < (l.step advance cap).out.length

/-- Walkers that have all ended make an idle round: with room left and rounds left, the loop
reaches one. -/
theorem not_progress_of_short (hlife : Lifespan advance life) (hround : l₀.round = 0)
    (hpos : 0 < maxRounds) (hshort : ∀ w ∈ l₀.walkers, life w < maxRounds)
    (hsum : l₀.out.length + (l₀.walkers.map life).sum < cap) :
    ¬ Progress advance cap maxRounds l₀ := by
  intro hprog
  -- no head runs out of room: the output never exceeds what all chains give together
  have hroom : ∀ k, ((step advance cap)^[k] l₀).out.length < cap := by
    intro k
    induction k with
    | zero => exact (Nat.le_add_right _ _).trans_lt hsum
    | succ k ih =>
      by_contra hfull
      obtain ⟨-, hk⟩ := iterate_of_room hlife ih
      have hpass : ((step advance cap)^[k + 1] l₀).out.length ≤
          ((step advance cap)^[k] l₀).out.length +
            (((step advance cap)^[k] l₀).walkers.map life).sum := by
        rw [iterate_succ_step]
        exact length_pass_le_add hlife _ _
      rw [(iterate_of_room hlife ih).1] at hpass
      omega
  have hguard : ∀ k < maxRounds, ((step advance cap)^[k] l₀).Guard cap maxRounds := by
    intro k hk
    exact ⟨by rw [round_iterate, hround]; omega, hroom k⟩
  -- the last round finds every walker ended
  set k := maxRounds - 1 with hk
  have hidle : ∀ w ∈ ((step advance cap)^[k] l₀).walkers, life w = 0 := by
    intro w hw
    by_contra hne
    obtain ⟨v, hv, hlt⟩ := (exists_live_iterate_iff hlife (hroom k)).1 ⟨w, hw, hne⟩
    have := hshort v hv
    omega
  have hgrow := hprog _ ⟨k, rfl, fun i hi ↦ hguard i (by omega)⟩ (hguard k (by omega))
  rw [Loop.step, pass_of_dead hlife hidle] at hgrow
  exact absurd hgrow (Nat.lt_irrefl _)

/-- **When every round appends something**: exactly when no round runs at all, some walker
outlives the rounds, or the walkers together have enough answers to fill the output. -/
theorem progress_iff (hlife : Lifespan advance life) (hround : l₀.round = 0) :
    Progress advance cap maxRounds l₀ ↔
      maxRounds = 0 ∨ (∃ w ∈ l₀.walkers, maxRounds ≤ life w) ∨
        cap ≤ l₀.out.length + (l₀.walkers.map life).sum := by
  constructor
  · intro hprog
    by_contra hno
    simp only [not_or, not_exists, not_and, not_le] at hno
    obtain ⟨hpos, hshort, hsum⟩ := hno
    exact not_progress_of_short hlife hround (Nat.pos_of_ne_zero hpos) hshort hsum hprog
  · rintro hcond l ⟨k, rfl, -⟩ ⟨hlt, hroom⟩
    rw [round_iterate, hround, Nat.zero_add] at hlt
    refine length_lt_length_pass hlife hroom ((exists_live_iterate_iff hlife hroom).2 ?_)
    rcases hcond with h | ⟨w, hw, hle⟩ | hfill
    · omega
    · exact ⟨w, hw, by omega⟩
    · -- were every life used up, the output would already hold all answers
      by_contra hnone
      simp only [not_exists, not_and, not_lt] at hnone
      obtain ⟨-, hsum⟩ := iterate_of_room hlife hroom
      have hzero : (l₀.walkers.map fun w ↦ life w - k).sum = 0 := by
        rw [List.sum_eq_zero_iff_forall_eq_nat]
        intro n hn
        obtain ⟨w, hw, rfl⟩ := List.mem_map.1 hn
        have := hnone w hw
        omega
      omega

/-- Progress bounds the rounds by the room there was at the start. -/
theorem round_le_of_progress (hprog : Progress advance cap maxRounds l₀) (hround : l₀.round = 0)
    (h0 : l₀.out.length ≤ cap) (h : Head advance cap maxRounds l₀ l) :
    l.round + l₀.out.length ≤ cap := by
  have hcap := length_out_le_of_head h0 h
  obtain ⟨k, rfl, hk⟩ := h
  have hout : ∀ j ≤ k, j + l₀.out.length ≤ ((step advance cap)^[j] l₀).out.length := by
    intro j hj
    induction j with
    | zero => exact (Nat.zero_add _).le
    | succ j ih =>
      have hgrow := hprog _ ⟨j, rfl, fun i hi ↦ hk i (by omega)⟩ (hk j (by omega))
      rw [← iterate_succ_step] at hgrow
      have := ih (by omega)
      omega
  rw [round_iterate, hround]
  have := hout k le_rfl
  omega

end Loop

/-! ### What the loop collects -/

section Rows

variable (advance)

/-- The walker after its next answer. One that has ended stays as it is. -/
def after (w : ω) : ω :=
  match advance w with
  | none => w
  | some (_, w') => w'

/-- The `n`-th answer of a walker, `none` once it has ended. -/
def answer (n : ℕ) (w : ω) : Option β := (advance ((after advance)^[n] w)).map Prod.fst

/-- The answers of the `n`-th round. -/
def row (ws : List ω) (n : ℕ) : List β := ws.filterMap (answer advance n)

/-- The answers of the first `k` rounds. -/
def rows (ws : List ω) (k : ℕ) : List β := (List.range k).flatMap (row advance ws)

/-- The answers of one walker in its first `n` rounds. -/
def answers (w : ω) (n : ℕ) : List β := (List.range n).filterMap fun i ↦ answer advance i w

variable {advance}

theorem answer_zero (w : ω) : answer advance 0 w = (advance w).map Prod.fst := rfl

theorem answer_succ (n : ℕ) (w : ω) :
    answer advance (n + 1) w = answer advance n (after advance w) := by
  rw [answer, Function.iterate_succ_apply, answer]

theorem row_succ (ws : List ω) (n : ℕ) :
    row advance ws (n + 1) = row advance (ws.map (after advance)) n := by
  rw [row, row, List.filterMap_map]
  exact congrArg (List.filterMap · ws) (funext (answer_succ n))

theorem rows_succ (ws : List ω) (k : ℕ) :
    rows advance ws (k + 1) = row advance ws 0 ++ rows advance (ws.map (after advance)) k := by
  rw [rows, List.range_succ_eq_map, List.flatMap_cons, List.flatMap_map, rows]
  exact congrArg (row advance ws 0 ++ (List.range k).flatMap ·) (funext (row_succ ws))

theorem rows_succ' (ws : List ω) (k : ℕ) :
    rows advance ws (k + 1) = rows advance ws k ++ row advance ws k := by
  rw [rows, List.range_succ, List.flatMap_append, List.flatMap_singleton, rows]

theorem answers_succ (w : ω) (n : ℕ) :
    answers advance w (n + 1) = answers advance w n ++ (answer advance n w).toList := by
  rw [answers, List.range_succ, List.filterMap_append, answers]
  cases h : answer advance n w <;> simp [h]

/-- One round appends its row, as far as the output has room. -/
theorem pass_snd {ws : List ω} {out : List β} (h : out.length ≤ cap) :
    (pass advance cap ws out).2 = (out ++ row advance ws 0).take cap := by
  induction ws generalizing out with
  | nil => rw [pass_nil, row, List.filterMap_nil, List.append_nil, List.take_of_length_le h]
  | cons w ws ih =>
    by_cases hroom : out.length < cap
    · rcases hw : advance w with - | ⟨b, w'⟩
      · rw [pass_cons_none hroom hw, ih h, row, row,
          List.filterMap_cons_none (by rw [answer_zero, hw, Option.map_none])]
      · rw [pass_cons_some hroom hw, ih (by rw [List.length_append]; exact hroom), row, row,
          List.filterMap_cons_some (by rw [answer_zero, hw, Option.map_some]), List.append_assoc,
          List.singleton_append]
    · have hlen : out.length = cap := Nat.le_antisymm h (Nat.not_lt.1 hroom)
      rw [pass_full hlen.ge, ← hlen, List.take_left]

/-- A round that leaves room has moved every walker. -/
theorem pass_fst {ws : List ω} {out : List β}
    (h : (pass advance cap ws out).2.length < cap) :
    (pass advance cap ws out).1 = ws.map (after advance) := by
  induction ws generalizing out with
  | nil => rfl
  | cons w ws ih =>
    have hroom : out.length < cap := (le_length_pass _ _).trans_lt h
    rcases hw : advance w with - | ⟨b, w'⟩
    · rw [pass_cons_none hroom hw] at h ⊢
      rw [ih h, List.map_cons, after, hw]
    · rw [pass_cons_some hroom hw] at h ⊢
      rw [ih h, List.map_cons, after, hw]

/-- **The loop collects the answers row by row**, cut off at the cap. -/
theorem Loop.out_run {fuel : ℕ} {l : Loop ω β} (h : l.out.length ≤ cap)
    (hfuel : maxRounds ≤ l.round + fuel) :
    (run advance cap maxRounds fuel l).out =
      (l.out ++ rows advance l.walkers (maxRounds - l.round)).take cap := by
  induction fuel generalizing l with
  | zero =>
    rw [run, Nat.sub_eq_zero_of_le (show maxRounds ≤ l.round from hfuel), rows, List.range_zero,
      List.flatMap_nil, List.append_nil, List.take_of_length_le h]
  | succ fuel ih =>
    rw [run]
    split
    · next hg =>
      have hlen : (l.step advance cap).out.length ≤ cap := length_pass_le h
      have hround : (l.step advance cap).round = l.round + 1 := rfl
      have hout : (l.step advance cap).out = (l.out ++ row advance l.walkers 0).take cap :=
        pass_snd h
      obtain ⟨k, hk⟩ : ∃ k, maxRounds - l.round = k + 1 :=
        ⟨maxRounds - l.round - 1, by have := hg.1; omega⟩
      rw [ih hlen (by omega), hround, hk, rows_succ, ← List.append_assoc,
        show maxRounds - (l.round + 1) = k by omega]
      by_cases hroom : (l.step advance cap).out.length < cap
      · have hwalk : (l.step advance cap).walkers = l.walkers.map (after advance) := pass_fst hroom
        have hshort : (l.out ++ row advance l.walkers 0).length ≤ cap := by
          rw [hout, List.length_take] at hroom
          omega
        rw [hwalk, hout, List.take_of_length_le hshort]
      · -- the output is full, and what follows changes nothing
        have hfull : (l.step advance cap).out.length = cap :=
          Nat.le_antisymm hlen (Nat.not_lt.1 hroom)
        have hlong : cap ≤ (l.out ++ row advance l.walkers 0).length := by
          rw [hout, List.length_take] at hfull
          omega
        rw [List.take_append_of_le_length hfull.ge, List.take_append_of_le_length hlong, hout,
          List.take_take, Nat.min_self]
    · next hg =>
      rw [Guard, not_and_or, Nat.not_lt, Nat.not_lt] at hg
      rcases hg with hr | hc
      · -- out of rounds, or the output is full
        rw [Nat.sub_eq_zero_of_le hr, rows, List.range_zero, List.flatMap_nil, List.append_nil,
          List.take_of_length_le h]
      · rw [List.take_append_of_le_length hc, List.take_of_length_le h]

/-! ### What holds of every answer -/

theorem forall_pass {I : ω → Prop} {P : β → Prop}
    (hstep : ∀ w b w', I w → advance w = some (b, w') → P b ∧ I w') {ws : List ω} {out : List β}
    (hws : ∀ w ∈ ws, I w) (hout : ∀ b ∈ out, P b) :
    (∀ w ∈ (pass advance cap ws out).1, I w) ∧ ∀ b ∈ (pass advance cap ws out).2, P b := by
  induction ws generalizing out with
  | nil => exact ⟨hws, hout⟩
  | cons w ws ih =>
    rw [List.forall_mem_cons] at hws
    by_cases hroom : out.length < cap
    · rcases hw : advance w with - | ⟨b, w'⟩
      · obtain ⟨h₁, h₂⟩ := ih hws.2 hout
        rw [pass_cons_none hroom hw]
        exact ⟨List.forall_mem_cons.2 ⟨hws.1, h₁⟩, h₂⟩
      · obtain ⟨hb, hw'⟩ := hstep w b w' hws.1 hw
        have hout' : ∀ c ∈ out ++ [b], P c := by
          intro c hc
          rcases List.mem_append.1 hc with hc | hc
          · exact hout c hc
          · rwa [List.mem_singleton.1 hc]
        obtain ⟨h₁, h₂⟩ := ih hws.2 hout'
        rw [pass_cons_some hroom hw]
        exact ⟨List.forall_mem_cons.2 ⟨hw', h₁⟩, h₂⟩
    · rw [pass_full (Nat.not_lt.1 hroom)]
      exact ⟨List.forall_mem_cons.2 hws, hout⟩

/-- **An invariant of the walkers gives a property of the answers.** -/
theorem Loop.forall_out_run {I : ω → Prop} {P : β → Prop}
    (hstep : ∀ w b w', I w → advance w = some (b, w') → P b ∧ I w') (fuel : ℕ) {l : Loop ω β}
    (hws : ∀ w ∈ l.walkers, I w) (hout : ∀ b ∈ l.out, P b) :
    ∀ b ∈ (run advance cap maxRounds fuel l).out, P b := by
  induction fuel generalizing l with
  | zero => exact hout
  | succ fuel ih =>
    rw [run]
    split
    · obtain ⟨h₁, h₂⟩ := @forall_pass ω β advance cap I P hstep l.walkers l.out hws hout
      exact @ih (l.step advance cap) h₁ h₂
    · exact hout

end Rows

/-! ### Walkers that carry a tag -/

section Tags

variable {τ : Type*}

variable (advance) in
/-- Walkers that carry a tag and mark every answer with it. -/
def tagged (w : ω × τ) : Option ((β × τ) × (ω × τ)) :=
  (advance w.1).map fun r ↦ ((r.1, w.2), (r.2, w.2))

theorem after_tagged (w : ω × τ) : after (tagged advance) w = (after advance w.1, w.2) := by
  rcases h : advance w.1 with - | ⟨b, w'⟩
  · simp [after, tagged, h]
  · simp [after, tagged, h]

theorem answer_tagged (n : ℕ) (w : ω × τ) :
    answer (tagged advance) n w = (answer advance n w.1).map (·, w.2) := by
  induction n generalizing w with
  | zero =>
    rcases h : advance w.1 with - | ⟨b, w'⟩
    · simp [answer, tagged, h]
    · simp [answer, tagged, h]
  | succ n ih => rw [answer_succ, ih, after_tagged, answer_succ]

/-- Without their tags, the answers are those of the walkers without tags. -/
theorem map_fst_rows_tagged (ws : List (ω × τ)) (k : ℕ) :
    (rows (tagged advance) ws k).map Prod.fst = rows advance (ws.map Prod.fst) k := by
  rw [rows, List.map_flatMap, rows]
  refine congrArg (List.flatMap · (List.range k)) (funext fun n ↦ ?_)
  rw [row, row, List.map_filterMap, List.filterMap_map]
  refine congrArg (List.filterMap · ws) (funext fun w ↦ ?_)
  rw [answer_tagged, Option.map_map, Function.comp_apply]
  cases answer advance n w.1 <;> rfl

variable (advance) in
/-- The answers of a round that carry the tag of the `i`-th walker: its own, if it has one. -/
theorem filter_row_tagged (ws : List ω) (s n : ℕ) {i : ℕ} (hi : i < ws.length) :
    ((row (tagged advance) (ws.zipIdx s) n).filter fun b ↦ b.2 = s + i).map Prod.fst =
      (answer advance n ws[i]).toList := by
  have hcons : ∀ (w : ω) (ws : List ω) (s : ℕ), row (tagged advance) ((w :: ws).zipIdx s) n =
      ((answer advance n w).map (·, s)).toList ++ row (tagged advance) (ws.zipIdx (s + 1)) n := by
    intro w ws s
    rw [row, List.zipIdx_cons, List.filterMap_cons, answer_tagged, row]
    cases answer advance n w <;> rfl
  -- the tags of a round are the positions of its walkers
  have hge : ∀ (ws : List ω) (s : ℕ), ∀ b ∈ row (tagged advance) (ws.zipIdx s) n, s ≤ b.2 := by
    intro ws s b hb
    obtain ⟨⟨w, t⟩, hw, hans⟩ := List.mem_filterMap.1 hb
    rw [answer_tagged] at hans
    obtain ⟨a, -, rfl⟩ := Option.map_eq_some_iff.1 hans
    exact List.le_snd_of_mem_zipIdx (x := (w, t)) hw
  induction ws generalizing s i with
  | nil => simp at hi
  | cons w ws ih =>
    rw [hcons, List.filter_append, List.map_append]
    cases i with
    | zero =>
      have hrest : (row (tagged advance) (ws.zipIdx (s + 1)) n).filter
          (fun b ↦ b.2 = s + 0) = [] := by
        rw [List.filter_eq_nil_iff]
        intro b hb
        have := hge ws (s + 1) b hb
        simp only [decide_eq_true_eq]
        omega
      rw [hrest, List.map_nil, List.append_nil, List.getElem_cons_zero]
      cases answer advance n w <;> simp
    | succ i =>
      have hfirst : (((answer advance n w).map (·, s)).toList.filter
          fun b ↦ b.2 = s + (i + 1)) = [] := by
        cases answer advance n w <;> simp
      rw [hfirst, List.map_nil, List.nil_append, List.getElem_cons_succ,
        ← ih (s + 1) (by simpa using hi)]
      simp only [Nat.add_comm i 1, Nat.add_assoc]

/-- **The answers that carry a walker's tag are its own**, in order. -/
theorem filter_rows_tagged (ws : List ω) (s k : ℕ) {i : ℕ} (hi : i < ws.length) :
    ((rows (tagged advance) (ws.zipIdx s) k).filter fun b ↦ b.2 = s + i).map Prod.fst =
      answers advance ws[i] k := by
  induction k with
  | zero => simp [rows, answers]
  | succ k ih =>
    rw [rows_succ', List.filter_append, List.map_append, ih, filter_row_tagged advance ws s k hi,
      answers_succ]

end Tags

/-- A cut through the rows leaves whole rounds and a part of the next one. -/
theorem take_rows (ws : List ω) {c k : ℕ} (h : c < (rows advance ws k).length) :
    ∃ n < k, ∃ m, (rows advance ws k).take c = rows advance ws n ++ (row advance ws n).take m := by
  induction k with
  | zero => simp [rows] at h
  | succ k ih =>
    rw [rows_succ'] at h ⊢
    by_cases hc : c < (rows advance ws k).length
    · obtain ⟨n, hn, m, heq⟩ := ih hc
      exact ⟨n, hn.trans (Nat.lt_succ_self k), m, by
        rw [List.take_append_of_le_length hc.le, heq]⟩
    · exact ⟨k, Nat.lt_succ_self k, c - (rows advance ws k).length, by
        rw [List.take_append, List.take_of_length_le (Nat.not_lt.1 hc)]⟩

end RoundRobin

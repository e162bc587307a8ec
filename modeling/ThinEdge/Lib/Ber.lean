import Mathlib.Data.Int.Notation
import Mathlib.Data.List.Induction
import Mathlib.Data.Nat.Basic
import Mathlib.Data.Nat.Size
import Mathlib.Order.Basic
import Mathlib.Tactic.Ring

/-!
# BER as lists of bytes

The encodings that BER builds messages from, as functions on lists of bytes: definite lengths, the
tag-length-value form, integers in two's complement, and base-128 numbers. Each has its canonical,
shortest encoding and a reading function that accepts longer ones too; the round trips are
`splitTlv_tlv`, `twosValue_twosBytes` and `subIds_flatMap_group`, and `flatMap_group_of_subIds` is
the converse for base-128 numbers without leading zero groups.

Numbers are unbounded here. A codec with machine integers reads the same bytes and keeps the value
modulo its word.
-/

namespace Ber

/-! ### Numbers in base 256 -/

/-- The bytes of a number, low byte first, none for zero. -/
def leBytes (n : ℕ) : List UInt8 :=
  if n = 0 then [] else UInt8.ofNat (n % 256) :: leBytes (n / 256)
termination_by n

/-- The number that bytes stand for, high byte first. -/
def beValue (bs : List UInt8) : ℕ := bs.foldl (fun a b ↦ a * 256 + b.toNat) 0

@[simp] theorem leBytes_zero : leBytes 0 = [] := by rw [leBytes, if_pos rfl]

theorem leBytes_of_ne_zero {n : ℕ} (h : n ≠ 0) :
    leBytes n = UInt8.ofNat (n % 256) :: leBytes (n / 256) := by
  rw [leBytes, if_neg h]

theorem toNat_ofNat_of_lt {n : ℕ} (h : n < 256) : (UInt8.ofNat n).toNat = n := by
  rw [UInt8.toNat_ofNat', Nat.mod_eq_of_lt h]

theorem beValue_append_singleton (bs : List UInt8) (b : UInt8) :
    beValue (bs ++ [b]) = beValue bs * 256 + b.toNat := by
  rw [beValue, List.foldl_append, beValue]
  rfl

theorem beValue_lt (bs : List UInt8) : beValue bs < 256 ^ bs.length := by
  induction bs using List.reverseRecOn with
  | nil => exact Nat.one_pos
  | append_singleton bs b ih =>
    have hb := b.toNat_lt
    rw [beValue_append_singleton, List.length_append, List.length_singleton, Nat.pow_succ]
    omega

/-- Reading the bytes of a number gives it back. -/
theorem beValue_reverse_leBytes (n : ℕ) : beValue (leBytes n).reverse = n := by
  induction n using Nat.strong_induction_on with
  | h n ih =>
    by_cases h : n = 0
    · rw [h, leBytes_zero]
      rfl
    · rw [leBytes_of_ne_zero h, List.reverse_cons, beValue_append_singleton,
        ih (n / 256) (by omega), toNat_ofNat_of_lt (Nat.mod_lt n (by decide))]
      omega

theorem length_leBytes_le {n k : ℕ} (h : n < 256 ^ k) : (leBytes n).length ≤ k := by
  induction k generalizing n with
  | zero =>
    obtain rfl : n = 0 := by simpa using h
    rw [leBytes_zero]
    exact Nat.le_refl _
  | succ k ih =>
    by_cases h0 : n = 0
    · rw [h0, leBytes_zero]
      exact Nat.zero_le _
    · rw [leBytes_of_ne_zero h0, List.length_cons]
      refine Nat.succ_le_succ (ih ?_)
      rw [Nat.pow_succ] at h
      omega

/-- No encoding of a number is shorter than its bytes. -/
theorem length_leBytes_beValue_le (bs : List UInt8) : (leBytes (beValue bs)).length ≤ bs.length :=
  length_leBytes_le (beValue_lt bs)

theorem length_leBytes_mono {m n : ℕ} (h : m ≤ n) : (leBytes m).length ≤ (leBytes n).length := by
  refine length_leBytes_le (h.trans_lt ?_)
  have := beValue_lt (leBytes n).reverse
  rwa [beValue_reverse_leBytes, List.length_reverse] at this

theorem getLast?_leBytes_ne_zero (n : ℕ) : (leBytes n).getLast? ≠ some 0 := by
  induction n using Nat.strong_induction_on with
  | h n ih =>
    by_cases h : n = 0
    · simp [h]
    · rw [leBytes_of_ne_zero h]
      by_cases hq : n / 256 = 0
      · rw [hq, leBytes_zero, List.getLast?_singleton]
        intro heq
        have hzero := congrArg UInt8.toNat (Option.some.inj heq)
        rw [toNat_ofNat_of_lt (Nat.mod_lt n (by decide)), UInt8.toNat_zero] at hzero
        omega
      · rw [leBytes_of_ne_zero hq, List.getLast?_cons_cons, ← leBytes_of_ne_zero hq]
        exact ih (n / 256) (by omega)

/-! ### Definite lengths -/

/-- A definite length in the fewest bytes. -/
def lenField (n : ℕ) : List UInt8 :=
  if n < 128 then [UInt8.ofNat n]
  else UInt8.ofNat (128 + (leBytes n).length) :: (leBytes n).reverse

/-- A definite length read from the front, of at most `w` bytes in the long form, and the bytes
after it. -/
def splitLen (w : ℕ) : List UInt8 → Option (ℕ × List UInt8)
  | [] => none
  | b :: bs =>
    if b.toNat < 128 then some (b.toNat, bs)
    else if b.toNat % 128 = 0 ∨ w < b.toNat % 128 ∨ bs.length < b.toNat % 128 then none
    else some (beValue (bs.take (b.toNat % 128)), bs.drop (b.toNat % 128))

/-- The length fields that BER allows for a number: the short form, or its bytes after their
count. -/
def MinimalLen (n : ℕ) (lb : List UInt8) : Prop :=
  (n < 128 ∧ lb = [UInt8.ofNat n]) ∨
    128 ≤ n ∧ ∃ ds : List UInt8, lb = UInt8.ofNat (128 + ds.length) :: ds ∧ beValue ds = n ∧
      ds.head? ≠ some 0

theorem minimalLen_lenField (n : ℕ) : MinimalLen n (lenField n) := by
  rw [lenField]
  split
  · next h => exact Or.inl ⟨h, rfl⟩
  · next h =>
    refine Or.inr ⟨Nat.not_lt.1 h, (leBytes n).reverse, ?_, beValue_reverse_leBytes n, ?_⟩
    · rw [List.length_reverse]
    · rw [List.head?_reverse]
      exact getLast?_leBytes_ne_zero n

theorem splitLen_lenField {w n : ℕ} (hw : w < 128) (h : n < 256 ^ w) (rest : List UInt8) :
    splitLen w (lenField n ++ rest) = some (n, rest) := by
  rw [lenField]
  split
  · next hn =>
    rw [List.singleton_append, splitLen, toNat_ofNat_of_lt (by omega), if_pos hn]
  · next hn =>
    have hlen := length_leBytes_le h
    have hpos : (leBytes n).length ≠ 0 := by
      rw [leBytes_of_ne_zero (by omega), List.length_cons]
      exact Nat.succ_ne_zero _
    have hmod : (128 + (leBytes n).length) % 128 = (leBytes n).length := by omega
    rw [List.cons_append, splitLen, toNat_ofNat_of_lt (by omega), if_neg (by omega), hmod,
      if_neg, List.take_left' (List.length_reverse ..), List.drop_left' (List.length_reverse ..),
      beValue_reverse_leBytes]
    rw [List.length_append, List.length_reverse]
    omega

/-- What a length that was read looked like: it is not shorter than the canonical one. -/
theorem splitLen_eq_some {w n : ℕ} {bs rest : List UInt8} (h : splitLen w bs = some (n, rest)) :
    ∃ lb, bs = lb ++ rest ∧ (lenField n).length ≤ lb.length := by
  cases bs with
  | nil => exact absurd h (by simp [splitLen])
  | cons b bs =>
    rw [splitLen] at h
    split at h
    · next hb =>
      obtain ⟨rfl, rfl⟩ : b.toNat = n ∧ bs = rest := by simpa using h
      exact ⟨[b], rfl, by rw [lenField, if_pos hb]; rfl⟩
    · split at h
      · exact absurd h (by simp)
      · next hno =>
        simp only [not_or, Nat.not_lt] at hno
        obtain ⟨hval, rfl⟩ : beValue (bs.take (b.toNat % 128)) = n ∧
            bs.drop (b.toNat % 128) = rest := by simpa using h
        refine ⟨b :: bs.take (b.toNat % 128), by
          rw [List.cons_append, List.take_append_drop], ?_⟩
        have hle := length_leBytes_beValue_le (bs.take (b.toNat % 128))
        rw [hval] at hle
        rw [lenField]
        split
        · exact Nat.succ_le_succ (Nat.zero_le _)
        · rw [List.length_cons, List.length_cons, List.length_reverse]
          exact Nat.succ_le_succ hle

theorem length_lenField_pos (n : ℕ) : 1 ≤ (lenField n).length := by
  rw [lenField]
  split
  · exact Nat.le_refl _
  · exact Nat.succ_le_succ (Nat.zero_le _)

theorem length_lenField_mono {m n : ℕ} (h : m ≤ n) :
    (lenField m).length ≤ (lenField n).length := by
  by_cases hm : m < 128
  · rw [lenField, if_pos hm]
    exact length_lenField_pos n
  · rw [lenField, if_neg hm, lenField, if_neg (by omega), List.length_cons, List.length_cons,
      List.length_reverse, List.length_reverse]
    exact Nat.succ_le_succ (length_leBytes_mono h)

/-! ### Tag, length, value -/

/-- An element with its content. -/
def tlv (tag : UInt8) (content : List UInt8) : List UInt8 :=
  tag :: (lenField content.length ++ content)

/-- The element at the front: its tag, its content, and the bytes after it. -/
def splitTlv (w : ℕ) : List UInt8 → Option (UInt8 × List UInt8 × List UInt8)
  | [] => none
  | tag :: bs =>
    match splitLen w bs with
    | none => none
    | some (n, bs) => if bs.length < n then none else some (tag, bs.take n, bs.drop n)

/-- **The round trip of an element.** -/
theorem splitTlv_tlv {w : ℕ} (hw : w < 128) (tag : UInt8) {content : List UInt8}
    (h : content.length < 256 ^ w) (rest : List UInt8) :
    splitTlv w (tlv tag content ++ rest) = some (tag, content, rest) := by
  rw [tlv, List.cons_append, List.append_assoc, splitTlv, splitLen_lenField hw h]
  show (if (content ++ rest).length < content.length then none
    else some (tag, (content ++ rest).take content.length,
      (content ++ rest).drop content.length)) = _
  rw [if_neg (by rw [List.length_append]; omega), List.take_left, List.drop_left]

theorem splitTlv_eq_some {w : ℕ} {bs content rest : List UInt8} {tag : UInt8}
    (h : splitTlv w bs = some (tag, content, rest)) :
    ∃ lb, bs = tag :: (lb ++ (content ++ rest)) ∧ (lenField content.length).length ≤ lb.length := by
  cases bs with
  | nil => exact absurd h (by simp [splitTlv])
  | cons t bs =>
    rw [splitTlv] at h
    rcases hs : splitLen w bs with - | ⟨n, bs'⟩
    · rw [hs] at h
      exact absurd h (by simp)
    · rw [hs] at h
      obtain ⟨lb, rfl, hlen⟩ := splitLen_eq_some hs
      by_cases hn : bs'.length < n
      · simp [hn] at h
      · simp only [hn, if_false, Option.some.injEq, Prod.mk.injEq] at h
        obtain ⟨rfl, rfl, rfl⟩ := h
        refine ⟨lb, by rw [List.take_append_drop], ?_⟩
        rwa [List.length_take, Nat.min_eq_left (Nat.not_lt.1 hn)]

/-- An element is not longer than any element it was read from. -/
theorem length_tlv_le_of_splitTlv {w : ℕ} {bs content rest : List UInt8} {tag : UInt8}
    (h : splitTlv w bs = some (tag, content, rest)) :
    (tlv tag content).length + rest.length ≤ bs.length := by
  obtain ⟨lb, rfl, hle⟩ := splitTlv_eq_some h
  simp only [tlv, List.length_cons, List.length_append]
  omega

theorem length_tlv (tag : UInt8) (content : List UInt8) :
    (tlv tag content).length = 1 + (lenField content.length).length + content.length := by
  rw [tlv, List.length_cons, List.length_append]
  omega

/-- A header takes six bytes at most, for a length of 32 bits. -/
theorem length_tlv_le (tag : UInt8) {content : List UInt8} (h : content.length < 2 ^ 32) :
    (tlv tag content).length ≤ content.length + 6 := by
  have hle : (lenField content.length).length ≤ 5 := by
    rw [lenField]
    split
    · exact (show 1 ≤ 5 by decide)
    · have := @length_leBytes_le content.length 4 (by omega)
      rw [List.length_cons, List.length_reverse]
      omega
  rw [length_tlv]
  omega

theorem length_tlv_mono {t t' : UInt8} {c c' : List UInt8} (h : c.length ≤ c'.length) :
    (tlv t c).length ≤ (tlv t' c').length := by
  have := length_lenField_mono h
  rw [length_tlv, length_tlv]
  omega

/-! ### Integers -/

/-- The low byte of an integer in two's complement. -/
def twosByte (v : ℤ) : UInt8 := UInt8.ofNat (v % 256).toNat

/-- An integer in two's complement, low byte first, in the fewest bytes. -/
def twosLe (v : ℤ) : List UInt8 :=
  if -128 ≤ v ∧ v < 128 then [twosByte v] else twosByte v :: twosLe (v / 256)
termination_by v.natAbs
decreasing_by omega

/-- An integer in two's complement, high byte first, in the fewest bytes. -/
def twosBytes (v : ℤ) : List UInt8 := (twosLe v).reverse

/-- The bytes shifted into a number that has the value `a` already. -/
def shiftIn (a : ℤ) (bs : List UInt8) : ℤ := bs.foldl (fun a b ↦ a * 256 + b.toNat) a

/-- The integer that bytes stand for: their number, extended from the sign bit of the first. -/
def twosValue : List UInt8 → ℤ
  | [] => 0
  | b :: bs => shiftIn (if b.toNat < 128 then 0 else -1) (b :: bs)

/-- The first nine bits are not all the same, so that no shorter encoding has the same value. -/
def MinimalInt (v : ℤ) (bs : List UInt8) : Prop :=
  bs ≠ [] ∧ twosValue bs = v ∧
    ∀ a b rest, bs = a :: b :: rest →
      ¬ (a.toNat = 0 ∧ b.toNat < 128) ∧ ¬ (a.toNat = 255 ∧ 128 ≤ b.toNat)

theorem toNat_twosByte (v : ℤ) : ((twosByte v).toNat : ℤ) = v % 256 := by
  rw [twosByte, toNat_ofNat_of_lt (by omega)]
  omega

theorem twosLe_of_small {v : ℤ} (h : -128 ≤ v ∧ v < 128) : twosLe v = [twosByte v] := by
  rw [twosLe, if_pos h]

theorem twosLe_of_large {v : ℤ} (h : ¬ (-128 ≤ v ∧ v < 128)) :
    twosLe v = twosByte v :: twosLe (v / 256) := by
  rw [twosLe, if_neg h]

theorem shiftIn_append_singleton (a : ℤ) (bs : List UInt8) (b : UInt8) :
    shiftIn a (bs ++ [b]) = shiftIn a bs * 256 + b.toNat := by
  rw [shiftIn, List.foldl_append, shiftIn]
  rfl

/-- The bytes of an integer, shifted into its sign, give it back. -/
theorem shiftIn_twosBytes (v : ℤ) : shiftIn (if v < 0 then -1 else 0) (twosBytes v) = v := by
  rw [twosBytes]
  fun_induction twosLe v with
  | case1 v h =>
    show (if v < 0 then -1 else 0) * 256 + ((twosByte v).toNat : ℤ) = v
    rw [toNat_twosByte]
    split <;> omega
  | case2 v h ih =>
    have hsign : (if v / 256 < 0 then (-1 : ℤ) else 0) = if v < 0 then -1 else 0 :=
      if_congr (by omega) rfl rfl
    rw [hsign] at ih
    rw [List.reverse_cons, shiftIn_append_singleton, ih, toNat_twosByte]
    omega

/-- The sign of an integer stands in the first of its bytes. -/
theorem head_twosBytes (v : ℤ) :
    ∃ b bs, twosBytes v = b :: bs ∧ (b.toNat < 128 ↔ 0 ≤ v) := by
  rw [twosBytes]
  fun_induction twosLe v with
  | case1 v h =>
    refine ⟨twosByte v, [], rfl, ?_⟩
    have := toNat_twosByte v
    omega
  | case2 v h ih =>
    obtain ⟨b, bs, heq, hb⟩ := ih
    refine ⟨b, bs ++ [twosByte v], by rw [List.reverse_cons, heq, List.cons_append], ?_⟩
    rw [hb]
    omega

/-- **The round trip of an integer.** -/
theorem twosValue_twosBytes (v : ℤ) : twosValue (twosBytes v) = v := by
  obtain ⟨b, bs, heq, hb⟩ := head_twosBytes v
  have hvalue := shiftIn_twosBytes v
  rw [heq] at hvalue ⊢
  have hsign : (if b.toNat < 128 then (0 : ℤ) else -1) = if v < 0 then -1 else 0 := by
    split <;> split <;> omega
  rw [twosValue, hsign, hvalue]

theorem minimalInt_twosBytes (v : ℤ) : MinimalInt v (twosBytes v) := by
  refine ⟨?_, twosValue_twosBytes v, ?_⟩
  · obtain ⟨b, bs, heq, -⟩ := head_twosBytes v
    rw [heq]
    exact List.cons_ne_nil _ _
  · rw [twosBytes]
    fun_induction twosLe v with
    | case1 v h =>
      intro a b rest heq
      exact absurd (congrArg List.length heq) (by simp)
    | case2 v h ih =>
      intro a b rest heq
      rw [List.reverse_cons] at heq
      by_cases hq : -128 ≤ v / 256 ∧ v / 256 < 128
      · -- the sign byte and the one below it
        rw [twosLe_of_small hq, List.reverse_singleton] at heq
        obtain ⟨rfl, hrest⟩ := List.cons.inj heq
        obtain ⟨rfl, -⟩ := List.cons.inj hrest
        have ha := toNat_twosByte (v / 256)
        have hb := toNat_twosByte v
        omega
      · obtain ⟨c, cs, hcs, -⟩ := head_twosBytes (v / 256 / 256)
        have hrev : (twosLe (v / 256)).reverse = c :: (cs ++ [twosByte (v / 256)]) := by
          rw [twosLe_of_large hq, List.reverse_cons, ← twosBytes, hcs, List.cons_append]
        rw [hrev] at heq ih
        rcases cs with - | ⟨d, ds⟩
        · obtain ⟨rfl, hrest⟩ := List.cons.inj heq
          obtain ⟨rfl, -⟩ := List.cons.inj hrest
          exact ih _ _ _ rfl
        · obtain ⟨rfl, hrest⟩ := List.cons.inj heq
          obtain ⟨rfl, -⟩ := List.cons.inj hrest
          exact ih _ _ _ rfl

/-- The bytes that an integer of a given size takes. -/
theorem length_twosBytes_le {v : ℤ} {k : ℕ} (h : -(128 * 256 ^ k) ≤ v) (h' : v < 128 * 256 ^ k) :
    (twosBytes v).length ≤ k + 1 := by
  rw [twosBytes, List.length_reverse]
  induction k generalizing v with
  | zero =>
    rw [twosLe_of_small (by omega)]
    exact Nat.le_refl _
  | succ k ih =>
    by_cases hv : -128 ≤ v ∧ v < 128
    · rw [twosLe_of_small hv]
      exact Nat.succ_le_succ (Nat.zero_le _)
    · rw [twosLe_of_large hv, List.length_cons]
      rw [pow_succ] at h h'
      exact Nat.succ_le_succ (ih (by omega) (by omega))

/-- The size of the integer that bytes stand for. -/
theorem twosValue_bounds {bs : List UInt8} {k : ℕ} (h : bs.length = k + 1) :
    -(128 * 256 ^ k) ≤ twosValue bs ∧ twosValue bs < 128 * 256 ^ k := by
  obtain ⟨b, bs, rfl⟩ := List.exists_cons_of_length_eq_add_one h
  have hk : bs.length = k := Nat.succ.inj h
  subst hk
  rw [twosValue]
  induction bs using List.reverseRecOn with
  | nil =>
    have hb := b.toNat_lt
    show -(128 * 256 ^ 0) ≤ (if b.toNat < 128 then 0 else -1) * 256 + (b.toNat : ℤ) ∧
      (if b.toNat < 128 then 0 else -1) * 256 + (b.toNat : ℤ) < 128 * 256 ^ 0
    split <;> omega
  | append_singleton bs c ih =>
    have hc := c.toNat_lt
    obtain ⟨hlo, hhi⟩ := ih rfl
    rw [← List.cons_append, shiftIn_append_singleton, List.length_append, List.length_singleton,
      pow_succ]
    omega

/-- No encoding of an integer is shorter than its bytes. -/
theorem length_twosBytes_twosValue_le {bs : List UInt8} (h : bs ≠ []) :
    (twosBytes (twosValue bs)).length ≤ bs.length := by
  obtain ⟨k, hk⟩ := Nat.exists_eq_succ_of_ne_zero (List.length_pos_iff.2 h).ne'
  obtain ⟨hlo, hhi⟩ := twosValue_bounds hk
  exact (length_twosBytes_le hlo hhi).trans_eq hk.symm

/-- The bytes of a number as an integer: low byte first, with a zero byte on top where the sign bit
would be set. -/
theorem twosLe_natCast (n : ℕ) :
    twosLe n = if n < 128 then [UInt8.ofNat n]
      else if n < 256 then [UInt8.ofNat n, 0]
      else UInt8.ofNat (n % 256) :: twosLe (n / 256 : ℕ) := by
  have hbyte : twosByte n = UInt8.ofNat (n % 256) := by
    rw [twosByte]
    congr 1
  split
  · next h =>
    rw [twosLe_of_small (by omega), hbyte, Nat.mod_eq_of_lt (by omega)]
  · next h =>
    rw [twosLe_of_large (by omega), hbyte]
    split
    · next h' =>
      have hzero : (n : ℤ) / 256 = 0 := by omega
      rw [hzero, Nat.mod_eq_of_lt h', twosLe_of_small (by omega)]
      rfl
    · rfl

/-! ### Numbers in base 128 -/

/-- The groups of a number above its last one, low group first, each marked as continued. -/
def contGroups (n : ℕ) : List UInt8 :=
  if n = 0 then [] else UInt8.ofNat (n % 128 + 128) :: contGroups (n / 128)
termination_by n

/-- A number in base 128, high group first. -/
def group (n : ℕ) : List UInt8 := (contGroups (n / 128)).reverse ++ [UInt8.ofNat (n % 128)]

/-- The numbers that bytes stand for, where `acc` is the part read of the first one. A number that
the bytes break off is refused. -/
def scan : Option ℕ → List UInt8 → Option (List ℕ)
  | none, [] => some []
  | some _, [] => none
  | acc, b :: bs =>
    let v := acc.getD 0 * 128 + b.toNat % 128
    if b.toNat < 128 then (scan none bs).map (v :: ·) else scan (some v) bs

/-- The base-128 numbers that bytes stand for. -/
def subIds (bs : List UInt8) : Option (List ℕ) := scan none bs

/-- No number begins with an empty group; `start` when the next byte begins one. -/
def MinimalFrom : Bool → List UInt8 → Prop
  | _, [] => True
  | start, b :: bs => (start = true → b.toNat ≠ 128) ∧ MinimalFrom (decide (b.toNat < 128)) bs

instance decidableMinimalFrom : (start : Bool) → (bs : List UInt8) →
    Decidable (MinimalFrom start bs)
  | _, [] => .isTrue trivial
  | _, _ :: _ => @instDecidableAnd _ _ inferInstance (decidableMinimalFrom _ _)

theorem contGroups_of_ne_zero {n : ℕ} (h : n ≠ 0) :
    contGroups n = UInt8.ofNat (n % 128 + 128) :: contGroups (n / 128) := by
  rw [contGroups, if_neg h]

@[simp] theorem contGroups_zero : contGroups 0 = [] := by rw [contGroups, if_pos rfl]

theorem group_of_lt {n : ℕ} (h : n < 128) : group n = [UInt8.ofNat n] := by
  rw [group, Nat.div_eq_of_lt h, contGroups_zero, Nat.mod_eq_of_lt h]
  rfl

theorem scan_cons_of_lt {acc : Option ℕ} {b : UInt8} {bs : List UInt8} (h : b.toNat < 128) :
    scan acc (b :: bs) = (scan none bs).map ((acc.getD 0 * 128 + b.toNat % 128) :: ·) := by
  rw [scan]
  exact if_pos h

theorem scan_cons_of_le {acc : Option ℕ} {b : UInt8} {bs : List UInt8} (h : 128 ≤ b.toNat) :
    scan acc (b :: bs) = scan (some (acc.getD 0 * 128 + b.toNat % 128)) bs := by
  rw [scan]
  exact if_neg (Nat.not_lt.2 h)

theorem scan_contGroups (n : ℕ) (bs : List UInt8) :
    scan none ((contGroups n).reverse ++ bs) = scan (if n = 0 then none else some n) bs := by
  induction n using Nat.strong_induction_on generalizing bs with
  | h n ih =>
    by_cases hn : n = 0
    · rw [hn, contGroups_zero]
      rfl
    · have hlt : n % 128 + 128 < 256 := by omega
      rw [contGroups_of_ne_zero hn, List.reverse_cons, List.append_assoc, List.singleton_append,
        ih (n / 128) (by omega), if_neg hn,
        scan_cons_of_le (by rw [toNat_ofNat_of_lt hlt]; omega), toNat_ofNat_of_lt hlt]
      congr 2
      split
      · show 0 * 128 + _ = n
        omega
      · show n / 128 * 128 + _ = n
        omega

theorem scan_group (n : ℕ) (bs : List UInt8) :
    scan none (group n ++ bs) = (scan none bs).map (n :: ·) := by
  have hlt : n % 128 < 128 := Nat.mod_lt n (by decide)
  have hbyte : (UInt8.ofNat (n % 128)).toNat = n % 128 := toNat_ofNat_of_lt (by omega)
  rw [group, List.append_assoc, scan_contGroups, List.singleton_append,
    scan_cons_of_lt (by omega), hbyte]
  have hvalue :
      (if n / 128 = 0 then none else some (n / 128)).getD 0 * 128 + n % 128 % 128 = n := by
    split
    · show 0 * 128 + _ = n
      omega
    · show n / 128 * 128 + _ = n
      omega
  rw [hvalue]

/-- **The round trip of base-128 numbers.** -/
theorem subIds_flatMap_group (ns : List ℕ) : subIds (ns.flatMap group) = some ns := by
  rw [subIds]
  induction ns with
  | nil => rfl
  | cons n ns ih => rw [List.flatMap_cons, scan_group, ih, Option.map_some]

/-- The groups that a number read in part has taken. -/
def taken (acc : Option ℕ) : List UInt8 := (contGroups (acc.getD 0)).reverse

theorem taken_append_of_lt {acc : Option ℕ} {b : UInt8} (h : b.toNat < 128) :
    taken acc ++ [b] = group (acc.getD 0 * 128 + b.toNat % 128) := by
  have hdiv : (acc.getD 0 * 128 + b.toNat % 128) / 128 = acc.getD 0 := by omega
  have hmod : (acc.getD 0 * 128 + b.toNat % 128) % 128 = b.toNat := by omega
  rw [group, hdiv, hmod, UInt8.ofNat_toNat]
  rfl

theorem taken_append_of_le {acc : Option ℕ} {b : UInt8} (h : 128 ≤ b.toNat)
    (hpos : acc.getD 0 * 128 + b.toNat % 128 ≠ 0) :
    taken acc ++ [b] = taken (some (acc.getD 0 * 128 + b.toNat % 128)) := by
  have hb := b.toNat_lt
  have hdiv : (acc.getD 0 * 128 + b.toNat % 128) / 128 = acc.getD 0 := by omega
  have hmod : (acc.getD 0 * 128 + b.toNat % 128) % 128 + 128 = b.toNat := by omega
  rw [taken, taken, Option.getD_some, contGroups_of_ne_zero hpos, hdiv, hmod, List.reverse_cons,
    UInt8.ofNat_toNat]

/-- Bytes without empty leading groups are the encoding of the numbers read from them. -/
theorem taken_append_of_scan {acc : Option ℕ} {bs : List UInt8} {ns : List ℕ}
    (hacc : ∀ a, acc = some a → a ≠ 0) (hmin : MinimalFrom acc.isNone bs)
    (h : scan acc bs = some ns) : taken acc ++ bs = ns.flatMap group := by
  -- on the bytes, with the groups taken so far in `acc`
  induction bs generalizing acc ns with
  | nil =>
    rcases acc with - | a
    · obtain rfl : [] = ns := Option.some.inj h
      simp [taken]
    · exact absurd h (by simp [scan])
  | cons b bs ih =>
    obtain ⟨hfirst, hrest⟩ := hmin
    by_cases hb : b.toNat < 128
    · rw [scan_cons_of_lt hb] at h
      obtain ⟨ms, hms, rfl⟩ := Option.map_eq_some_iff.1 h
      rw [decide_eq_true hb] at hrest
      have htail := @ih none ms (by simp) hrest hms
      rw [List.append_cons, taken_append_of_lt hb, List.flatMap_cons, ← htail]
      simp [taken]
    · have hle : 128 ≤ b.toNat := Nat.not_lt.1 hb
      have hlt := b.toNat_lt
      rw [scan_cons_of_le hle] at h
      rw [decide_eq_false hb] at hrest
      -- minimal content does not begin a sub-identifier with a zero group
      have hpos : acc.getD 0 * 128 + b.toNat % 128 ≠ 0 := by
        rcases acc with - | a
        · have hne := hfirst rfl
          show 0 * 128 + _ ≠ 0
          omega
        · have hne := hacc a rfl
          show a * 128 + _ ≠ 0
          omega
      rw [List.append_cons, taken_append_of_le hle hpos]
      exact ih (by rintro a ⟨⟩; exact hpos) hrest h

/-- **The converse round trip**: base-128 numbers in the fewest bytes are encoded as they were. -/
theorem flatMap_group_of_subIds {bs : List UInt8} {ns : List ℕ} (hmin : MinimalFrom true bs)
    (h : subIds bs = some ns) : ns.flatMap group = bs := by
  have := @taken_append_of_scan none bs ns (by simp) hmin h
  rw [← this]
  simp [taken]

theorem length_group_le {n k : ℕ} (h : n < 128 ^ (k + 1)) : (group n).length ≤ k + 1 := by
  have hcont : ∀ {k m : ℕ}, m < 128 ^ k → (contGroups m).length ≤ k := by
    intro k
    induction k with
    | zero =>
      intro m hm
      obtain rfl : m = 0 := by simpa using hm
      rw [contGroups_zero]
      exact Nat.le_refl _
    | succ k ih =>
      intro m hm
      by_cases h0 : m = 0
      · rw [h0, contGroups_zero]
        exact Nat.zero_le _
      · rw [contGroups_of_ne_zero h0, List.length_cons]
        rw [Nat.pow_succ] at hm
        exact Nat.succ_le_succ (ih (by omega))
  rw [group, List.length_append, List.length_reverse, List.length_singleton]
  rw [Nat.pow_succ] at h
  exact Nat.succ_le_succ (hcont (by omega))

/-! ### Numbers of a given width -/

/-- The `k` low bytes of a number, low byte first. -/
def fixedLe : ℕ → ℕ → List UInt8
  | 0, _ => []
  | k + 1, n => UInt8.ofNat (n % 256) :: fixedLe k (n / 256)

theorem length_leBytes_eq (n : ℕ) : (leBytes n).length = (n.size + 7) / 8 := by
  have hpow : ∀ k, (256 : ℕ) ^ k = 2 ^ (8 * k) := fun k ↦ pow_mul 2 8 k ▸ rfl
  refine le_antisymm (length_leBytes_le ?_) ?_
  · rw [hpow]
    exact (Nat.lt_size_self n).trans_le (Nat.pow_le_pow_right (by decide) (by omega))
  · have hlt := beValue_lt (leBytes n).reverse
    rw [beValue_reverse_leBytes, List.length_reverse, hpow] at hlt
    have := Nat.size_le.2 hlt
    omega

/-- As many bytes as a number takes are its bytes. -/
theorem fixedLe_length_leBytes (n : ℕ) : fixedLe (leBytes n).length n = leBytes n := by
  induction n using Nat.strong_induction_on with
  | h n ih =>
    by_cases h : n = 0
    · rw [h, leBytes_zero]
      rfl
    · rw [leBytes_of_ne_zero h, List.length_cons, fixedLe, ih (n / 256) (by omega)]

theorem length_twosLe_natCast (n : ℕ) : (twosLe n).length = n.size / 8 + 1 := by
  have hpow : ∀ k, (128 * 256 ^ k : ℕ) = 2 ^ (8 * k + 7) := fun k ↦ by
    rw [pow_add, pow_mul, Nat.mul_comm]
    rfl
  have hlen : (twosBytes n).length = (twosLe n).length := List.length_reverse
  rw [← hlen]
  refine le_antisymm (length_twosBytes_le ?_ ?_) ?_
  · have hpos : (0 : ℤ) < 256 ^ (n.size / 8) := Int.pow_pos (by decide)
    omega
  · have hlt : n < 128 * 256 ^ (n.size / 8) := by
      rw [hpow]
      exact (Nat.lt_size_self n).trans_le (Nat.pow_le_pow_right (by decide) (by omega))
    exact_mod_cast hlt
  · obtain ⟨b, bs, heq, -⟩ := head_twosBytes n
    have hlt := (@twosValue_bounds (twosBytes n) bs.length (by rw [heq, List.length_cons])).2
    rw [twosValue_twosBytes] at hlt
    have hlt' : n < 128 * 256 ^ bs.length := by exact_mod_cast hlt
    rw [hpow] at hlt'
    have := Nat.size_le.2 hlt'
    rw [heq, List.length_cons]
    omega

/-- As many bytes as a number takes as an integer are its bytes. -/
theorem fixedLe_length_twosLe (n : ℕ) : fixedLe (twosLe n).length n = twosLe n := by
  induction n using Nat.strong_induction_on with
  | h n ih =>
    rw [twosLe_natCast]
    split
    · next h =>
      show [UInt8.ofNat (n % 256)] = _
      rw [Nat.mod_eq_of_lt (by omega)]
    · next h =>
      split
      · next h' =>
        show [UInt8.ofNat (n % 256), UInt8.ofNat (n / 256 % 256)] = _
        rw [Nat.mod_eq_of_lt h', Nat.div_eq_of_lt h']
        rfl
      · rw [List.length_cons, fixedLe, ih (n / 256) (by omega)]

theorem beValue_eq_shiftIn (bs : List UInt8) : (beValue bs : ℤ) = shiftIn 0 bs := by
  induction bs using List.reverseRecOn with
  | nil => rfl
  | append_singleton bs b ih =>
    rw [beValue_append_singleton, shiftIn_append_singleton, ← ih]
    push_cast
    rfl

/-- The bytes of a number as an integer give it back without the sign, too. -/
theorem beValue_twosBytes (n : ℕ) : beValue (twosBytes n) = n := by
  have h := shiftIn_twosBytes n
  rw [if_neg (by omega), ← beValue_eq_shiftIn] at h
  exact_mod_cast h

end Ber

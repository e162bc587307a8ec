import Mathlib.Data.List.TakeWhile
import ThinEdge.Lib.Bytes
import ThinEdge.Lib.Decimal

/-!
# Compact JSON without escapes

The part of JSON that a program can write without an encoder: strings of printable characters that
need no escape, integers, arrays and objects, and no whitespace. `Value.render` is the text of a
value, and `parse` reads such a text, as every JSON parser does. `parse_render` is the round trip;
it needs no condition, since a string carries the proof that it needs no escape. `Value.Sorted` is
the order of members that a canonical text keeps.
-/

namespace Json

open Bytes Decimal

/-! ### Values -/

/-- A character that a string holds as it is: printable, and neither a quote nor a backslash. -/
def IsPlain (b : UInt8) : Prop := 0x20 ≤ b.toNat ∧ b.toNat ≤ 0x7e ∧ b ≠ 0x22 ∧ b ≠ 0x5c

instance (b : UInt8) : Decidable (IsPlain b) := inferInstanceAs (Decidable (_ ∧ _ ∧ _ ∧ _))

/-- A string that needs no escape. -/
structure Text where
  bytes : List UInt8
  plain : ∀ b ∈ bytes, IsPlain b

@[ext] theorem Text.ext {s t : Text} (h : s.bytes = t.bytes) : s = t := by
  cases s
  cases t
  cases h
  rfl

/-- A JSON value. -/
inductive Value
  | str (s : Text)
  | int (n : ℤ)
  | arr (vs : List Value)
  | obj (ms : List (Text × Value))

/-! ### Texts -/

/-- A string between quotes. -/
def quoted (s : Text) : List UInt8 := 0x22 :: (s.bytes ++ [0x22])

/-- The key of a member. -/
def keyed (k : Text) : List UInt8 := quoted k ++ [0x3a]

mutual

/-- The text of a value. -/
def Value.render : Value → List UInt8
  | .str s => quoted s
  | .int n => signed n
  | .arr [] => [0x5b, 0x5d]
  | .arr (v :: vs) => 0x5b :: (v.render ++ renderElems vs)
  | .obj [] => [0x7b, 0x7d]
  | .obj ((k, v) :: ms) => 0x7b :: (keyed k ++ (v.render ++ renderMembers ms))

/-- The further elements of an array, and its end. -/
def renderElems : List Value → List UInt8
  | [] => [0x5d]
  | v :: vs => 0x2c :: (v.render ++ renderElems vs)

/-- The further members of an object, and its end. -/
def renderMembers : List (Text × Value) → List UInt8
  | [] => [0x7d]
  | (k, v) :: ms => 0x2c :: (keyed k ++ (v.render ++ renderMembers ms))

end

/-- The members of every object are in the order of their keys, and no key occurs twice. -/
inductive Value.Sorted : Value → Prop
  | str (s : Text) : Sorted (.str s)
  | int (n : ℤ) : Sorted (.int n)
  | arr {vs : List Value} (h : ∀ v ∈ vs, v.Sorted) : Sorted (.arr vs)
  | obj {ms : List (Text × Value)} (hkeys : (ms.map fun m ↦ m.1.bytes).Pairwise (· < ·))
    (h : ∀ m ∈ ms, m.2.Sorted) : Sorted (.obj ms)

/-- What stands outside the strings of a text; `inside` says whether the text starts in one. -/
def outsideStrings : Bool → List UInt8 → List UInt8
  | _, [] => []
  | inside, b :: s =>
    if b = 0x22 then outsideStrings (!inside) s
    else if inside then outsideStrings inside s
    else b :: outsideStrings inside s

/-- A space, a tab, a line feed or a carriage return. -/
def IsSpace (b : UInt8) : Prop := b ∈ [0x20, 0x09, 0x0a, 0x0d]

instance (b : UInt8) : Decidable (IsSpace b) := inferInstanceAs (Decidable (b ∈ _))

/-- No whitespace outside strings. -/
def Compact (s : List UInt8) : Prop := ∀ b ∈ outsideStrings false s, ¬ IsSpace b

/-! ### Reading a text -/

theorem isPlain_of_mem_takeWhile {s : List UInt8} {b : UInt8} (h : b ∈ s.takeWhile (IsPlain ·)) :
    IsPlain b := by simpa using List.mem_takeWhile_imp h

/-- The rest of a string, behind its first quote. -/
def parseText (s : List UInt8) : Option (Text × List UInt8) :=
  if (s.dropWhile (IsPlain ·)).head? = some 0x22 then
    some (⟨s.takeWhile (IsPlain ·), fun _ ↦ isPlain_of_mem_takeWhile⟩,
      (s.dropWhile (IsPlain ·)).tail)
  else none

/-- The key of a member. -/
def parseKey : List UInt8 → Option (Text × List UInt8)
  | [] => none
  | b :: s =>
    if b = 0x22 then do
      let (k, s) ← parseText s
      if s.head? = some 0x3a then some (k, s.tail) else none
    else none

/-- A number without a sign. -/
def parseNat (s : List UInt8) : Option (ℕ × List UInt8) :=
  let ds := s.takeWhile (IsDigit ·)
  if ds = digits (value ds) then some (value ds, s.dropWhile (IsDigit ·)) else none

/-- A number. -/
def parseInt (s : List UInt8) : Option (ℤ × List UInt8) :=
  if s.head? = some 0x2d then (parseNat s.tail).map fun p ↦ (-(p.1 : ℤ), p.2)
  else (parseNat s).map fun p ↦ ((p.1 : ℤ), p.2)

mutual

/-- A value, for a text that is no longer than the first argument. -/
def parseValue : ℕ → List UInt8 → Option (Value × List UInt8)
  | _, [] => none
  | 0, _ => none
  | n + 1, b :: s =>
    if b = 0x22 then (parseText s).map fun p ↦ (.str p.1, p.2)
    else if b = 0x5b then
      if s.head? = some 0x5d then some (.arr [], s.tail)
      else do
        let (v, s) ← parseValue n s
        let (vs, s) ← parseElems n s
        return (.arr (v :: vs), s)
    else if b = 0x7b then
      if s.head? = some 0x7d then some (.obj [], s.tail)
      else do
        let (k, s) ← parseKey s
        let (v, s) ← parseValue n s
        let (ms, s) ← parseMembers n s
        return (.obj ((k, v) :: ms), s)
    else (parseInt (b :: s)).map fun p ↦ (.int p.1, p.2)

/-- The further elements of an array, and its end. -/
def parseElems : ℕ → List UInt8 → Option (List Value × List UInt8)
  | _, [] => none
  | 0, _ => none
  | n + 1, b :: s =>
    if b = 0x5d then some ([], s)
    else if b = 0x2c then do
      let (v, s) ← parseValue n s
      let (vs, s) ← parseElems n s
      return (v :: vs, s)
    else none

/-- The further members of an object, and its end. -/
def parseMembers : ℕ → List UInt8 → Option (List (Text × Value) × List UInt8)
  | _, [] => none
  | 0, _ => none
  | n + 1, b :: s =>
    if b = 0x7d then some ([], s)
    else if b = 0x2c then do
      let (k, s) ← parseKey s
      let (v, s) ← parseValue n s
      let (ms, s) ← parseMembers n s
      return ((k, v) :: ms, s)
    else none

end

/-- A text that is one value and nothing else. -/
def parse (s : List UInt8) : Option Value := do
  let (v, rest) ← parseValue s.length s
  if rest = [] then some v else none

/-! ### The round trip -/

/-- What may stand behind a number. -/
def EndsNumber (rest : List UInt8) : Prop := ∀ b ∈ rest.head?, ¬ IsDigit b

/-- Nothing after an element can go on with its number. -/
theorem endsNumber_renderElems (vs : List Value) (rest : List UInt8) :
    EndsNumber (renderElems vs ++ rest) := by
  cases vs <;> rw [renderElems] <;> exact fun b hb ↦ Option.some.inj hb ▸ by decide

/-- Nor can anything after a member. -/
theorem endsNumber_renderMembers (ms : List (Text × Value)) (rest : List UInt8) :
    EndsNumber (renderMembers ms ++ rest) := by
  cases ms <;> rw [renderMembers] <;> exact fun b hb ↦ Option.some.inj hb ▸ by decide

/-- A text is read up to its closing quote. -/
theorem parseText_append (t : Text) (rest : List UInt8) :
    parseText (t.bytes ++ 0x22 :: rest) = some (t, rest) := by
  have hplain : ∀ b ∈ t.bytes, decide (IsPlain b) = true := fun b hb ↦ decide_eq_true (t.plain b hb)
  have hdrop : (t.bytes ++ 0x22 :: rest).dropWhile (IsPlain ·) = 0x22 :: rest := by
    rw [List.dropWhile_append_of_pos hplain, List.dropWhile_cons_of_neg (by decide)]
  have htake : (t.bytes ++ 0x22 :: rest).takeWhile (IsPlain ·) = t.bytes := by
    rw [List.takeWhile_append_of_pos hplain, List.takeWhile_cons_of_neg (by decide),
      List.append_nil]
  rw [parseText, if_pos (by rw [hdrop]; rfl)]
  exact congrArg some (Prod.ext (Text.ext htake) (congrArg List.tail hdrop))

/-- A key is read up to its colon. -/
theorem parseKey_append (k : Text) (rest : List UInt8) :
    parseKey (keyed k ++ rest) = some (k, rest) := by
  have htext : keyed k ++ rest = 0x22 :: (k.bytes ++ 0x22 :: 0x3a :: rest) := by
    simp [keyed, quoted]
  rw [htext, parseKey, if_pos rfl, parseText_append]
  rfl

/-- A number is read to its last digit. -/
theorem parseNat_append (n : ℕ) {rest : List UInt8} (h : EndsNumber rest) :
    parseNat (digits n ++ rest) = some (n, rest) := by
  have hdigits : ∀ b ∈ digits n, decide (IsDigit b) = true := fun b hb ↦
    decide_eq_true ((isNumeral_digits n).2 b hb)
  have hrest : rest.takeWhile (IsDigit ·) = [] ∧ rest.dropWhile (IsDigit ·) = rest := by
    cases rest with
    | nil => exact ⟨rfl, rfl⟩
    | cons b bs =>
      have hb : ¬ decide (IsDigit b) = true := by simpa using h b rfl
      exact ⟨List.takeWhile_cons_of_neg hb, List.dropWhile_cons_of_neg hb⟩
  rw [parseNat, List.takeWhile_append_of_pos hdigits, List.dropWhile_append_of_pos hdigits, hrest.1,
    hrest.2, List.append_nil, value_digits]
  exact if_pos rfl

/-- How a number starts. -/
theorem exists_signed (n : ℤ) : ∃ b bs, signed n = b :: bs ∧ (b = 0x2d ∨ IsDigit b) := by
  rw [signed]
  split
  · exact ⟨_, _, rfl, Or.inl rfl⟩
  · obtain ⟨b, bs, hdigits⟩ := List.exists_cons_of_ne_nil (isNumeral_digits n.natAbs).1
    exact ⟨b, bs, hdigits, Or.inr ((isNumeral_digits n.natAbs).2 b (hdigits ▸ List.mem_cons_self))⟩

/-- So is one with a sign. -/
theorem parseInt_append (n : ℤ) {rest : List UInt8} (h : EndsNumber rest) :
    parseInt (signed n ++ rest) = some (n, rest) := by
  rw [signed]
  split
  · next hneg =>
    rw [parseInt, if_pos (by rfl), List.cons_append, List.tail_cons, parseNat_append _ h,
      Option.map_some]
    exact congrArg some (Prod.ext (by dsimp only; omega) rfl)
  · next hpos =>
    obtain ⟨b, bs, hdigits⟩ := List.exists_cons_of_ne_nil (isNumeral_digits n.natAbs).1
    have hb : IsDigit b := (isNumeral_digits n.natAbs).2 b (hdigits ▸ List.mem_cons_self)
    have hhead : ¬ (digits n.natAbs ++ rest).head? = some 0x2d := by
      rw [hdigits, List.cons_append, List.head?_cons, Option.some_inj]
      rintro rfl
      exact absurd hb (by decide)
    rw [parseInt, if_neg hhead, parseNat_append _ h, Option.map_some]
    exact congrArg some (Prod.ext (by dsimp only; omega) rfl)

/-- A value does not start like the end of an array. -/
theorem Value.exists_render (v : Value) : ∃ b bs, v.render = b :: bs ∧ b ≠ 0x5d := by
  cases v with
  | str s => exact ⟨_, _, by rw [render, quoted], by decide⟩
  | int n =>
    obtain ⟨b, bs, hsigned, hb⟩ := exists_signed n
    refine ⟨b, bs, by rw [render, hsigned], ?_⟩
    rintro rfl
    revert hb
    decide
  | arr vs => cases vs <;> exact ⟨_, _, by rw [render], by decide⟩
  | obj ms => cases ms <;> exact ⟨_, _, by rw [render], by decide⟩

/-- The round trip of a text. -/
theorem parseValue_str {str : Text} {rest : List UInt8} {n : ℕ}
    (hn : (Value.str str).render.length ≤ n) :
    parseValue n ((Value.str str).render ++ rest) = some (.str str, rest) := by
  rw [Value.render, quoted] at hn ⊢
  obtain ⟨n, rfl⟩ := Nat.exists_eq_add_one_of_ne_zero (Nat.ne_zero_of_lt hn)
  rw [List.cons_append, parseValue, if_pos rfl, List.append_assoc, List.singleton_append,
    parseText_append]
  rfl

/-- The round trip of a number. -/
theorem parseValue_int {i : ℤ} {rest : List UInt8} {n : ℕ} (hn : (Value.int i).render.length ≤ n)
    (hrest : EndsNumber rest) :
    parseValue n ((Value.int i).render ++ rest) = some (.int i, rest) := by
  obtain ⟨b, bs, hsigned, hb⟩ := exists_signed i
  rw [Value.render] at hn ⊢
  have hparse := parseInt_append i hrest
  rw [hsigned, List.cons_append] at hparse
  rw [hsigned] at hn
  obtain ⟨n, rfl⟩ := Nat.exists_eq_add_one_of_ne_zero (Nat.ne_zero_of_lt hn)
  have hne : ∀ c : UInt8, ¬ (c = 0x2d ∨ IsDigit c) → b ≠ c := fun c hc heq ↦ hc (heq ▸ hb)
  rw [hsigned, List.cons_append, parseValue, if_neg (hne _ (by decide)),
    if_neg (hne _ (by decide)), if_neg (hne _ (by decide)), hparse]
  rfl

mutual

/-- **A value is read back**, and what stands behind it is left. -/
theorem parseValue_render : ∀ (v : Value) {n : ℕ} {rest : List UInt8}, v.render.length ≤ n →
    EndsNumber rest → parseValue n (v.render ++ rest) = some (v, rest)
  | .str _, _, _, hn, _ => parseValue_str hn
  | .int _, _, _, hn, hrest => parseValue_int hn hrest
  | .arr [], n, rest, hn, _ => by
    rw [Value.render] at hn ⊢
    obtain ⟨n, rfl⟩ := Nat.exists_eq_add_one_of_ne_zero (Nat.ne_zero_of_lt hn)
    rfl
  | .arr (v :: vs), n, rest, hn, _ => by
    obtain ⟨b, bs, hv, hb⟩ := v.exists_render
    rw [Value.render] at hn ⊢
    obtain ⟨n, rfl⟩ := Nat.exists_eq_add_one_of_ne_zero (Nat.ne_zero_of_lt hn)
    rw [List.length_cons, List.length_append] at hn
    have hhead : ¬ (v.render ++ (renderElems vs ++ rest)).head? = some 0x5d := by
      rw [hv, List.cons_append, List.head?_cons, Option.some_inj]
      exact hb
    rw [List.cons_append, List.append_assoc, parseValue, if_neg (by decide), if_pos rfl,
      if_neg hhead, parseValue_render v (by omega) (endsNumber_renderElems vs rest)]
    dsimp only [Option.bind_eq_bind, Option.bind_some]
    rw [parseElems_render vs (by omega)]
    rfl
  | .obj [], n, rest, hn, _ => by
    rw [Value.render] at hn ⊢
    obtain ⟨n, rfl⟩ := Nat.exists_eq_add_one_of_ne_zero (Nat.ne_zero_of_lt hn)
    rfl
  | .obj ((k, v) :: ms), n, rest, hn, _ => by
    rw [Value.render] at hn ⊢
    obtain ⟨n, rfl⟩ := Nat.exists_eq_add_one_of_ne_zero (Nat.ne_zero_of_lt hn)
    rw [List.length_cons, List.length_append, List.length_append] at hn
    have hhead : ¬ (keyed k ++ (v.render ++ (renderMembers ms ++ rest))).head? = some 0x7d := by
      rw [keyed, quoted]
      exact fun heq ↦ absurd (Option.some.inj heq) (by decide)
    rw [List.cons_append, List.append_assoc, List.append_assoc, parseValue, if_neg (by decide),
      if_neg (by decide), if_pos rfl, if_neg hhead, parseKey_append]
    dsimp only [Option.bind_eq_bind, Option.bind_some]
    rw [parseValue_render v (by omega) (endsNumber_renderMembers ms rest)]
    dsimp only [Option.bind_some]
    rw [parseMembers_render ms (by omega)]
    rfl

/-- The round trip of an array, element by element. -/
theorem parseElems_render : ∀ (vs : List Value) {n : ℕ} {rest : List UInt8},
    (renderElems vs).length ≤ n → parseElems n (renderElems vs ++ rest) = some (vs, rest)
  | [], n, rest, hn => by
    rw [renderElems] at hn ⊢
    obtain ⟨n, rfl⟩ := Nat.exists_eq_add_one_of_ne_zero (Nat.ne_zero_of_lt hn)
    rfl
  | v :: vs, n, rest, hn => by
    rw [renderElems] at hn ⊢
    obtain ⟨n, rfl⟩ := Nat.exists_eq_add_one_of_ne_zero (Nat.ne_zero_of_lt hn)
    rw [List.length_cons, List.length_append] at hn
    rw [List.cons_append, List.append_assoc, parseElems, if_neg (by decide), if_pos rfl,
      parseValue_render v (by omega) (endsNumber_renderElems vs rest)]
    dsimp only [Option.bind_eq_bind, Option.bind_some]
    rw [parseElems_render vs (by omega)]
    rfl

/-- The round trip of an object, member by member. -/
theorem parseMembers_render : ∀ (ms : List (Text × Value)) {n : ℕ} {rest : List UInt8},
    (renderMembers ms).length ≤ n → parseMembers n (renderMembers ms ++ rest) = some (ms, rest)
  | [], n, rest, hn => by
    rw [renderMembers] at hn ⊢
    obtain ⟨n, rfl⟩ := Nat.exists_eq_add_one_of_ne_zero (Nat.ne_zero_of_lt hn)
    rfl
  | (k, v) :: ms, n, rest, hn => by
    rw [renderMembers] at hn ⊢
    obtain ⟨n, rfl⟩ := Nat.exists_eq_add_one_of_ne_zero (Nat.ne_zero_of_lt hn)
    rw [List.length_cons, List.length_append, List.length_append] at hn
    rw [List.cons_append, List.append_assoc, List.append_assoc, parseMembers, if_neg (by decide),
      if_pos rfl, parseKey_append]
    dsimp only [Option.bind_eq_bind, Option.bind_some]
    rw [parseValue_render v (by omega) (endsNumber_renderMembers ms rest)]
    dsimp only [Option.bind_some]
    rw [parseMembers_render ms (by omega)]
    rfl

end

/-- **The round trip.** -/
theorem parse_render (v : Value) : parse v.render = some v := by
  have hvalue : parseValue v.render.length (v.render ++ []) = some (v, []) :=
    parseValue_render v (Nat.le_refl _) fun b hb ↦ absurd hb (by simp)
  rw [List.append_nil] at hvalue
  rw [parse, hvalue]
  rfl

/-- A text stands for one value. -/
theorem render_injective : Function.Injective Value.render := fun v w h ↦
  Option.some.inj (by rw [← parse_render v, h, parse_render])

/-! ### No whitespace -/

/-- A byte that is neither a space nor a quote keeps a text compact. -/
theorem compact_cons {b : UInt8} (hb : ¬ IsSpace b) (hquote : b ≠ 0x22) {s : List UInt8}
    (h : Compact s) : Compact (b :: s) := by
  rw [Compact, outsideStrings, if_neg hquote]
  exact List.forall_mem_cons.2 ⟨hb, h⟩

/-- Between quotes anything may stand. -/
theorem compact_quoted (t : Text) {s : List UInt8} (h : Compact s) : Compact (quoted t ++ s) := by
  -- inside the string, up to the closing quote
  have hinside : ∀ bs : List UInt8, (∀ b ∈ bs, IsPlain b) →
      outsideStrings true (bs ++ 0x22 :: s) = outsideStrings false s := by
    intro bs hplain
    induction bs with
    | nil => rfl
    | cons b bs ih =>
      obtain ⟨hb, hbs⟩ := List.forall_mem_cons.1 hplain
      rw [List.cons_append, outsideStrings, if_neg hb.2.2.1, if_pos rfl, ih hbs]
  rw [Compact, quoted, List.cons_append, outsideStrings, if_pos rfl, List.append_assoc]
  exact (hinside t.bytes t.plain).symm ▸ h

theorem compact_keyed (t : Text) {s : List UInt8} (h : Compact s) : Compact (keyed t ++ s) := by
  rw [keyed, List.append_assoc]
  exact compact_quoted t (compact_cons (by decide) (by decide) h)

theorem compact_signed (n : ℤ) {s : List UInt8} (h : Compact s) : Compact (signed n ++ s) := by
  have hdigits : ∀ bs : List UInt8, AllDigits bs → Compact (bs ++ s) := by
    intro bs hbs
    induction bs with
    | nil => exact h
    | cons b bs ih =>
      obtain ⟨hb, hbs⟩ := List.forall_mem_cons.1 hbs
      refine compact_cons ?_ ?_ (ih hbs)
      · simp only [IsSpace, List.mem_cons, List.not_mem_nil, or_false]
        rintro (rfl | rfl | rfl | rfl) <;> exact absurd hb (by decide)
      · rintro rfl
        exact absurd hb (by decide)
  rw [signed]
  split
  · exact compact_cons (by decide) (by decide) (hdigits _ (isNumeral_digits _).2)
  · exact hdigits _ (isNumeral_digits _).2

mutual

/-- **A value is written without whitespace.** -/
theorem compact_render : ∀ (v : Value) {s : List UInt8}, Compact s → Compact (v.render ++ s)
  | .str t, s, h => by
    rw [Value.render]
    exact compact_quoted t h
  | .int n, s, h => by
    rw [Value.render]
    exact compact_signed n h
  | .arr [], s, h => by
    rw [Value.render]
    exact compact_cons (by decide) (by decide) (compact_cons (by decide) (by decide) h)
  | .arr (v :: vs), s, h => by
    rw [Value.render, List.cons_append, List.append_assoc]
    exact compact_cons (by decide) (by decide) (compact_render v (compact_renderElems vs h))
  | .obj [], s, h => by
    rw [Value.render]
    exact compact_cons (by decide) (by decide) (compact_cons (by decide) (by decide) h)
  | .obj ((k, v) :: ms), s, h => by
    rw [Value.render, List.cons_append, List.append_assoc, List.append_assoc]
    exact compact_cons (by decide) (by decide)
      (compact_keyed k (compact_render v (compact_renderMembers ms h)))

/-- An array is written without spaces. -/
theorem compact_renderElems : ∀ (vs : List Value) {s : List UInt8}, Compact s →
    Compact (renderElems vs ++ s)
  | [], s, h => by
    rw [renderElems]
    exact compact_cons (by decide) (by decide) h
  | v :: vs, s, h => by
    rw [renderElems, List.cons_append, List.append_assoc]
    exact compact_cons (by decide) (by decide) (compact_render v (compact_renderElems vs h))

/-- So is an object. -/
theorem compact_renderMembers : ∀ (ms : List (Text × Value)) {s : List UInt8}, Compact s →
    Compact (renderMembers ms ++ s)
  | [], s, h => by
    rw [renderMembers]
    exact compact_cons (by decide) (by decide) h
  | (k, v) :: ms, s, h => by
    rw [renderMembers, List.cons_append, List.append_assoc, List.append_assoc]
    exact compact_cons (by decide) (by decide)
      (compact_keyed k (compact_render v (compact_renderMembers ms h)))

end

/-- No value is written with a space outside its texts. -/
theorem Value.compact (v : Value) : Compact v.render := by
  have hnil : Compact [] := fun b hb ↦ absurd hb List.not_mem_nil
  exact List.append_nil v.render ▸ compact_render v hnil

end Json

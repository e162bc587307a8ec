import ThinEdge.Provisioner.ZtpStage

/-!
# Zero-touch provisioning: what an INI body says

`ini_walk` hands a callback one line after the other. Here the same text is read as a file: records
in front of the first section, and sections with their records. `iniWalk_eq_foldlM` says that a walk
is a fold over the calls that the file makes, section by section.

In a section, the last record of a key counts (`lastOf`).
-/

namespace ThinEdge.Provisioner

open Bytes

/-- A section. -/
structure IniSection where
  name : List UInt8
  records : List ZtpKv
  deriving DecidableEq, Repr

/-- A file: the records in front of the first section, and the sections. -/
structure IniFile where
  loose : List ZtpKv
  sections : List IniSection
  deriving DecidableEq, Repr

/-- A file with one more line in front of it. -/
def IniFile.cons (line : List UInt8) (file : IniFile) : IniFile :=
  if isSectionLine line then ⟨[], ⟨line.tail.dropLast, file.loose⟩ :: file.sections⟩
  else
    match kvOfLine line with
    | none => file
    | some kv => { file with loose := kv :: file.loose }

/-- The file that lines make up. -/
def iniFile (lines : List (List UInt8)) : IniFile :=
  lines.foldr (fun line ↦ IniFile.cons (stripCr line)) ⟨[], []⟩

/-- The sections of a text. -/
def iniSections (p : List UInt8) : List IniSection := (iniFile (lineReader.toList p)).sections

/-- The values of a key, in the order of their lines. -/
def valuesOf (key : List UInt8) (records : List ZtpKv) : List (List UInt8) :=
  (records.filter (·.key = key)).map ZtpKv.val

/-- The value of a key: the last one counts. -/
def lastOf (key : List UInt8) (records : List ZtpKv) : Option (List UInt8) :=
  (valuesOf key records).getLast?

/-! ### The last record of a key -/

variable {key : List UInt8} {records : List ZtpKv} {kv : ZtpKv}

theorem mem_valuesOf {v : List UInt8} : v ∈ valuesOf key records ↔ ⟨key, v⟩ ∈ records := by
  rw [valuesOf, List.mem_map]
  constructor
  · rintro ⟨⟨k, w⟩, hmem, rfl⟩
    obtain ⟨hrec, hkey⟩ := List.mem_filter.1 hmem
    obtain rfl : k = key := of_decide_eq_true hkey
    exact hrec
  · intro hmem
    exact ⟨⟨key, v⟩, List.mem_filter.2 ⟨hmem, decide_eq_true rfl⟩, rfl⟩

theorem lastOf_append (key : List UInt8) (records : List ZtpKv) (kv : ZtpKv) :
    lastOf key (records ++ [kv]) = if kv.key = key then some kv.val else lastOf key records := by
  rw [lastOf, lastOf, valuesOf, valuesOf, List.filter_append, List.filter_singleton]
  rcases Decidable.em (kv.key = key) with h | h
  · rw [if_pos h, decide_eq_true h, cond_true, List.map_append]
    exact List.getLast?_concat
  · rw [if_neg h, decide_eq_false h, cond_false, List.append_nil]

/-! ### The walk -/

variable {σ : Type} {fn : List UInt8 → Option ZtpKv → σ → ℤ × σ}

/-- The calls a section makes. -/
def IniSection.calls (sect : IniSection) : List (List UInt8 × Option ZtpKv) :=
  (sect.name, none) :: sect.records.map fun kv ↦ (sect.name, some kv)

/-- The calls a file makes, when its first records belong to the section `name`. -/
def IniFile.calls (name : List UInt8) (file : IniFile) : List (List UInt8 × Option ZtpKv) :=
  (file.loose.map fun kv ↦ (name, some kv)) ++ file.sections.flatMap IniSection.calls

/-- One call; a result other than zero ends the walk. -/
def iniCall (fn : List UInt8 → Option ZtpKv → σ → ℤ × σ) (s : σ)
    (call : List UInt8 × Option ZtpKv) : Except (ℤ × σ) σ :=
  let r := fn call.1 call.2 s
  if r.1 ≠ 0 then .error r else .ok r.2

theorem foldlM_iniLine (fn : List UInt8 → Option ZtpKv → σ → ℤ × σ) (lines : List (List UInt8))
    (name : List UInt8) (s : σ) : (lines.foldlM (iniLine fn) (name, s)).map Prod.snd =
      ((iniFile lines).calls name).foldlM (iniCall fn) s := by
  induction lines generalizing name s with
  | nil => rfl
  | cons line lines ih =>
    have hfile : iniFile (line :: lines) = (iniFile lines).cons (stripCr line) := rfl
    rw [List.foldlM_cons, iniLine, hfile, IniFile.cons]
    dsimp only
    split
    · rw [IniFile.calls, List.map_nil, List.nil_append, List.flatMap_cons, IniSection.calls,
        List.cons_append, List.foldlM_cons, iniCall]
      dsimp only
      split
      · rfl
      · exact ih _ _
    · cases kvOfLine (stripCr line) with
      | none => exact ih _ _
      | some kv =>
        rw [IniFile.calls, List.map_cons, List.cons_append, List.foldlM_cons, iniCall]
        dsimp only
        split
        · rfl
        · exact ih _ _

/-- The calls that a walk over a text makes. -/
def iniCalls (p : List UInt8) : List (List UInt8 × Option ZtpKv) :=
  (iniFile (lineReader.toList p)).calls []

/-- **A walk is a fold over the calls of the file.** -/
theorem iniWalk_eq_foldlM (fn : List UInt8 → Option ZtpKv → σ → ℤ × σ) (p : List UInt8) (s : σ) :
    iniWalk fn p s =
      match (iniCalls p).foldlM (iniCall fn) s with
      | .error r => r
      | .ok s' => (0, s') := by
  rw [iniWalk, Reader.run_eq_foldlM, iniCalls, ← foldlM_iniLine]
  cases (lineReader.toList p).foldlM (iniLine fn) ([], s) <;> rfl

theorem ne_zero_of_iniCall {call : List UInt8 × Option ZtpKv} {s : σ} {r : ℤ × σ}
    (h : iniCall fn s call = .error r) : r.1 ≠ 0 := by
  rw [iniCall] at h
  split at h
  · next hrc => exact Except.error.inj h ▸ hrc
  · exact absurd h (by simp)

/-- A call that returns zero. -/
theorem eq_of_iniCall {call : List UInt8 × Option ZtpKv} {s s' : σ}
    (h : iniCall fn s call = .ok s') : fn call.1 call.2 s = (0, s') := by
  rw [iniCall] at h
  split at h
  · exact absurd h (by simp)
  · next hrc => exact Prod.ext (not_not.1 hrc) (Except.ok.inj h)

/-- A walk that returns zero has made all calls. -/
theorem foldlM_of_iniWalk {p : List UInt8} {s : σ} (h : (iniWalk fn p s).1 = 0) :
    (iniCalls p).foldlM (iniCall fn) s = .ok (iniWalk fn p s).2 := by
  rw [iniWalk_eq_foldlM] at h ⊢
  cases hrun : (iniCalls p).foldlM (iniCall fn) s with
  | ok s' => rfl
  | error r =>
    rw [hrun] at h
    have hkeep : ∀ call ∈ iniCalls p, ∀ t t', True → iniCall fn t call = .ok t' → True :=
      fun _ _ _ _ _ _ ↦ trivial
    obtain ⟨call, -, t, -, hcall⟩ := Reader.of_foldlM_error hkeep trivial hrun
    exact absurd h (ne_zero_of_iniCall hcall)

/-- What a walk returns is zero unless it is left early. -/
theorem iniWalk_eq_zero_iff {p : List UInt8} {s : σ} : (iniWalk fn p s).1 = 0 ↔
    ¬ ∃ r, (iniCalls p).foldlM (iniCall fn) s = .error r := by
  constructor
  · rintro h ⟨r, hrun⟩
    exact absurd ((foldlM_of_iniWalk h).symm.trans hrun) (by simp)
  · intro h
    rw [iniWalk_eq_foldlM]
    cases hrun : (iniCalls p).foldlM (iniCall fn) s with
    | ok s' => rfl
    | error r => exact absurd ⟨r, hrun⟩ h

end ThinEdge.Provisioner

import Mathlib.Data.List.MinMax
import ThinEdge.Lib.Decimal
import ThinEdge.Provisioner.ZtpIni

/-!
# Zero-touch provisioning: which network is chosen

`wifi_stage` walks over a `wifi.v2` body with a running best. Here its result is compared with what
the body says as a file: the first of the networks with the highest priority.

* `wifiStage_spec` says for every body whether it is accepted and what is staged, with the
  priorities as `wifi_ini` reads them.
* `choosesRight_iff`: `wifi_ini` reads six characters of a priority and no more. What is staged is
  what the body asks for exactly as far as that makes no difference.
-/

namespace ThinEdge.Provisioner

open Bytes Decimal Net

/-! ### What a body asks for -/

/-- The records of each network. -/
def networks (p : List UInt8) : List (List ZtpKv) :=
  ((iniSections p).filter (·.name = ascii "network")).map IniSection.records

/-- The password of a network; an open one has none. -/
def passwordOf (rs : List ZtpKv) : List UInt8 :=
  if lastOf (ascii "key_mgmt") rs = some (ascii "NONE") then []
  else (lastOf (ascii "password") rs).getD []

/-- The priority of a network, with its value read by `read`. -/
def priorityOf (read : List UInt8 → Option ℤ) (rs : List ZtpKv) : ℤ :=
  ((lastOf (ascii "priority") rs).bind read).getD 0

/-- The first item with the largest value. -/
def firstMax {α β : Type*} [LinearOrder β] (f : α → β) (l : List α) : Option α := l.argmax f

/-- The first network of the highest priority, among those with an SSID. -/
def bestOf (read : List UInt8 → Option ℤ) (ns : List (List ZtpKv)) : Option (List ZtpKv) :=
  firstMax (priorityOf read) (ns.filter fun rs ↦ (lastOf (ascii "ssid") rs).isSome)

/-- The SSID and the password of that network. -/
def chosen (read : List UInt8 → Option ℤ) (p : List UInt8) : Option (List UInt8 × List UInt8) :=
  (bestOf read (networks p)).bind fun rs ↦
    (lastOf (ascii "ssid") rs).map fun ssid ↦ (ssid, passwordOf rs)

/-- A record that no network may have, where `bad` are the priorities that none may have. -/
def BadRecord (bad : List UInt8 → Prop) (kv : ZtpKv) : Prop :=
  kv.key = ascii "ssid" ∧ (kv.val = [] ∨ 32 < kv.val.length) ∨
    kv.key = ascii "password" ∧ 64 < kv.val.length ∨ kv.key = ascii "priority" ∧ bad kv.val

/-- Some network has such a record. -/
def HasBadRecord (bad : List UInt8 → Prop) (p : List UInt8) : Prop :=
  ∃ rs ∈ networks p, ∃ kv ∈ rs, BadRecord bad kv

/-- The value is no integer. -/
def NotInteger (v : List UInt8) : Prop := integer v = none

/-- **A body is staged as it asks for**: what is staged of an accepted body are the SSID and the
password of the first network of the highest priority, and a bad body is not accepted. -/
def ChoosesRight (p : List UInt8) : Prop :=
  ((wifiStage p).1 = 0 → some ((wifiStage p).2.best.creds.ssid, (wifiStage p).2.best.creds.psk) =
      chosen integer p) ∧
    (HasBadRecord NotInteger p → (wifiStage p).1 ≠ 0)

/-! ### Priorities -/

/-- A character other than a digit is among the first six, or among the five behind the sign. -/
def StrayStart (v : List UInt8) : Prop :=
  ∃ b ∈ (v.take 6).drop (if v.head? = some 45 then 1 else 0), ¬ IsDigit b

/-- The integer that the first six characters stand for. -/
def integerOfSix (v : List UInt8) : Option ℤ := integer (v.take 6)

theorem foldl_digits {ds : List UInt8} (h : ∀ b ∈ ds, IsDigit b) (n : ℕ) :
    ds.foldl (fun (p : ℤ) b ↦ p * 10 + ((b.toNat : ℤ) - 48)) n =
      (ds.foldl (fun v b ↦ v * 10 + (b.toNat - 48)) n : ℕ) := by
  induction ds generalizing n with
  | nil => rfl
  | cons b ds ih =>
    have hb : IsDigit b := h b List.mem_cons_self
    have hstep : (n : ℤ) * 10 + ((b.toNat : ℤ) - 48) = (n * 10 + (b.toNat - 48) : ℕ) := by
      rw [IsDigit] at hb
      omega
    rw [List.foldl_cons, List.foldl_cons, hstep]
    exact ih (fun c hc ↦ h c (List.mem_cons_of_mem b hc)) _

theorem all_digit_iff (ds : List UInt8) :
    (ds.all fun b ↦ '0'.toUInt8 ≤ b ∧ b ≤ '9'.toUInt8) = true ↔ AllDigits ds := by
  rw [List.all_eq_true]
  exact forall₂_congr fun b _ ↦ decide_eq_true_iff

/-- A priority with a sign. -/
theorem parsePriority_neg (ds : List UInt8) : parsePriority (45 :: ds) =
    if AllDigits (ds.take 5) then some (-(value (ds.take 5) : ℤ)) else none := by
  have hall := all_digit_iff (ds.take 5)
  rw [parsePriority, List.head?_cons, List.take_succ_cons]
  dsimp only
  rw [if_pos (show some 45 = some '-'.toUInt8 from rfl), List.drop_succ_cons, List.drop_zero,
    if_pos (show some 45 = some '-'.toUInt8 from rfl)]
  refine if_ctx_congr hall (fun hds ↦ ?_) fun _ ↦ rfl
  exact congrArg (fun n : ℤ ↦ some (-n)) (foldl_digits hds 0)

/-- A priority without one. -/
theorem parsePriority_pos {v : List UInt8} (h : v.head? ≠ some 45) : parsePriority v =
    if AllDigits (v.take 6) then some (value (v.take 6) : ℤ) else none := by
  have hall := all_digit_iff (v.take 6)
  have hsign : ¬ v.head? = some '-'.toUInt8 := h
  rw [parsePriority]
  dsimp only
  rw [if_neg hsign, List.drop_zero, if_neg hsign]
  refine if_ctx_congr hall (fun hds ↦ ?_) fun _ ↦ rfl
  exact congrArg some (foldl_digits hds 0)

theorem parsePriority_eq_none_iff {v : List UInt8} : parsePriority v = none ↔ StrayStart v := by
  rw [StrayStart]
  rcases Decidable.em (v.head? = some 45) with hsign | hsign
  · obtain ⟨ds, rfl⟩ : ∃ ds, v = 45 :: ds := ⟨v.tail, List.eq_cons_of_mem_head? hsign⟩
    rw [parsePriority_neg, if_pos hsign, List.take_succ_cons, List.drop_succ_cons, List.drop_zero,
      ite_eq_right_iff]
    simp [AllDigits]
  · rw [parsePriority_pos hsign, if_neg hsign, List.drop_zero, ite_eq_right_iff]
    simp [AllDigits]

/-- **What `wifi_ini` reads of an integer**: its first six characters. -/
theorem parsePriority_of_integer {v : List UInt8} (h : integer v ≠ none) :
    parsePriority v = integerOfSix v := by
  rw [integerOfSix, integer]
  rw [integer] at h
  rcases Decidable.em (v.head? = some 45) with hsign | hsign
  · obtain ⟨ds, rfl⟩ : ∃ ds, v = 45 :: ds := ⟨v.tail, List.eq_cons_of_mem_head? hsign⟩
    rw [if_pos hsign, List.tail_cons] at h
    have hds : IsNumeral (ds.take 5) := .take (not_not.1 fun hno ↦ h (if_neg hno)) 4
    rw [parsePriority_neg, List.take_succ_cons, List.head?_cons, if_pos rfl, List.tail_cons,
      if_pos hds, if_pos hds.2]
  · rw [if_neg hsign] at h
    have hv : IsNumeral (v.take 6) := .take (not_not.1 fun hno ↦ h (if_neg hno)) 5
    have hhead : ¬ (v.take 6).head? = some 45 := by
      rw [List.head?_take, if_neg (by decide)]
      exact hsign
    rw [parsePriority_pos hsign, if_neg hhead, if_pos hv, if_pos hv.2]

/-! ### One network -/

variable {w w' : WifiStaging} {c c' : WifiCandidate} {kv : ZtpKv} {rs : List ZtpKv}
  {name p : List UInt8}

theorem copyVal_take {n : ℕ} {dst a : Area n} {k : Fin n} {v : List UInt8}
    (h : copyVal dst v = some (a, k)) : a.bytes.take k = v := by
  rw [copyVal] at h
  split at h
  · obtain ⟨rfl, rfl⟩ := Prod.mk.inj (Option.some.inj h)
    show (overwrite dst.bytes (v ++ [0])).take v.length = v
    rw [overwrite, List.append_assoc, List.take_left]
  · exact absurd h (by simp)

/-- The candidate has what the records say. -/
structure Reads (c : WifiCandidate) (rs : List ZtpKv) : Prop where
  seenSsid : c.seenSsid = (lastOf (ascii "ssid") rs).isSome
  ssid : ∀ v ∈ lastOf (ascii "ssid") rs, c.creds.creds.ssid = v
  psk : c.creds.creds.psk = (lastOf (ascii "password") rs).getD []
  isOpen : c.isOpen = decide (lastOf (ascii "key_mgmt") rs = some (ascii "NONE"))
  priority : c.priority = priorityOf parsePriority rs

theorem reads_zero : Reads .zero [] := by
  refine ⟨rfl, ?_, rfl, rfl, rfl⟩
  simp [lastOf, valuesOf]

/-- A record of a network, for the candidate. -/
def candidateRecord (c : WifiCandidate) (kv : ZtpKv) : Option WifiCandidate :=
  if kv.key = ascii "ssid" then
    if kv.val = [] then none
    else (copyVal c.creds.ssid kv.val).map fun r ↦
      { c with creds := { c.creds with ssid := r.1, ssidLen := r.2 }, seenSsid := true }
  else if kv.key = ascii "password" then
    (copyVal c.creds.psk kv.val).map fun r ↦
      { c with creds := { c.creds with psk := r.1, pskLen := r.2 } }
  else if kv.key = ascii "key_mgmt" then some { c with isOpen := kv.val = ascii "NONE" }
  else if kv.key = ascii "priority" then
    (parsePriority kv.val).map fun priority ↦ { c with priority }
  else some c

/-- `wifi_ini` works on the candidate alone. -/
theorem wifiIni_record (h : w.inNetwork = true) : wifiIni name (some kv) w =
    (candidateRecord w.cur kv).elim (einval, w) fun cur ↦ (0, { w with cur }) := by
  rw [wifiIni, candidateRecord]
  dsimp only
  rw [if_neg (not_not.2 h)]
  split
  · split
    · rfl
    · cases copyVal w.cur.creds.ssid kv.val <;> rfl
  split
  · cases copyVal w.cur.creds.psk kv.val <;> rfl
  split
  · rfl
  split
  · cases parsePriority kv.val <;> rfl
  · rfl

theorem copyVal_eq_none_iff {n : ℕ} {dst : Area n} {v : List UInt8} :
    copyVal dst v = none ↔ n ≤ v.length := by
  rw [copyVal]
  split
  · next hlt => exact iff_of_false (by simp) (Nat.not_le.2 hlt)
  · next hge => exact iff_of_true rfl (Nat.not_lt.1 hge)

/-- It refuses just the bad records. -/
theorem candidateRecord_eq_none_iff : candidateRecord c kv = none ↔ BadRecord StrayStart kv := by
  have hsp : ascii "ssid" ≠ ascii "password" := by decide
  have hsr : ascii "ssid" ≠ ascii "priority" := by decide
  have hpr : ascii "password" ≠ ascii "priority" := by decide
  have hkr : ascii "key_mgmt" ≠ ascii "priority" := by decide
  rw [candidateRecord, BadRecord]
  rcases Decidable.em (kv.key = ascii "ssid") with hssid | hssid
  · rw [if_pos hssid]
    simp only [hssid, hsp, hsr, true_and, false_and, or_false]
    split
    · next hnil => exact iff_of_true rfl (Or.inl hnil)
    · next hne =>
      rw [Option.map_eq_none_iff, copyVal_eq_none_iff]
      exact (or_iff_right hne).symm
  rcases Decidable.em (kv.key = ascii "password") with hpsk | hpsk
  · rw [if_neg hssid, if_pos hpsk, Option.map_eq_none_iff, copyVal_eq_none_iff]
    simp only [hpsk, hsp.symm, hpr, true_and, false_and, false_or, or_false]
    exact Iff.rfl
  rw [if_neg hssid, if_neg hpsk]
  simp only [hssid, hpsk, false_and, false_or]
  split
  · next hmgmt => exact iff_of_false (by simp) fun hbad ↦ hkr (hmgmt.symm.trans hbad.1)
  split
  · next hprio => rw [Option.map_eq_none_iff, parsePriority_eq_none_iff, and_iff_right hprio]
  · next hprio => exact iff_of_false (by simp) fun hbad ↦ hprio hbad.1

/-- One more record. -/
theorem Reads.record (h : Reads c rs) (hcall : candidateRecord c kv = some c') :
    Reads c' (rs ++ [kv]) := by
  have hother : ∀ key, kv.key ≠ key → lastOf key (rs ++ [kv]) = lastOf key rs := fun key hne ↦ by
    rw [lastOf_append, if_neg hne]
  have hthis : ∀ key, kv.key = key → lastOf key (rs ++ [kv]) = some kv.val := fun key heq ↦ by
    rw [lastOf_append, if_pos heq]
  have hprio : kv.key ≠ ascii "priority" → priorityOf parsePriority (rs ++ [kv]) =
      priorityOf parsePriority rs := fun hne ↦ by rw [priorityOf, hother _ hne, priorityOf]
  -- no two of the keys are the same
  have hsp : ascii "ssid" ≠ ascii "password" := by decide
  have hsk : ascii "ssid" ≠ ascii "key_mgmt" := by decide
  have hsr : ascii "ssid" ≠ ascii "priority" := by decide
  have hpk : ascii "password" ≠ ascii "key_mgmt" := by decide
  have hpr : ascii "password" ≠ ascii "priority" := by decide
  have hkr : ascii "key_mgmt" ≠ ascii "priority" := by decide
  rw [candidateRecord] at hcall
  split at hcall
  · next hkey =>
    split at hcall
    · exact absurd hcall (by simp)
    obtain ⟨⟨a, k⟩, hcopy, rfl⟩ := Option.map_eq_some_iff.1 hcall
    have hssid : lastOf (ascii "ssid") (rs ++ [kv]) = some kv.val := hthis _ hkey
    exact {
      seenSsid := by rw [hssid]; rfl
      ssid := fun v hv ↦ by
        obtain rfl := Option.some.inj (hssid.symm.trans hv)
        exact copyVal_take hcopy
      psk := by rw [hother _ (hkey ▸ hsp)]; exact h.psk
      isOpen := by rw [hother _ (hkey ▸ hsk)]; exact h.isOpen
      priority := (h.priority.trans (hprio (hkey ▸ hsr)).symm) }
  next hssid =>
  split at hcall
  · next hkey =>
    obtain ⟨⟨a, k⟩, hcopy, rfl⟩ := Option.map_eq_some_iff.1 hcall
    exact {
      seenSsid := by rw [hother _ hssid]; exact h.seenSsid
      ssid := by rw [hother _ hssid]; exact h.ssid
      psk := by rw [hthis _ hkey]; exact copyVal_take hcopy
      isOpen := by rw [hother _ (hkey ▸ hpk)]; exact h.isOpen
      priority := (h.priority.trans (hprio (hkey ▸ hpr)).symm) }
  next hpsk =>
  split at hcall
  · next hkey =>
    obtain rfl := Option.some.inj hcall
    exact {
      seenSsid := by rw [hother _ hssid]; exact h.seenSsid
      ssid := by rw [hother _ hssid]; exact h.ssid
      psk := by rw [hother _ hpsk]; exact h.psk
      isOpen := by rw [hthis _ hkey]; exact decide_eq_decide.2 Option.some_inj.symm
      priority := (h.priority.trans (hprio (hkey ▸ hkr)).symm) }
  next hmgmt =>
  -- any other record leaves all fields but, perhaps, the priority
  have hrest : ∀ priority, priority = priorityOf parsePriority (rs ++ [kv]) →
      Reads { c with priority } (rs ++ [kv]) := fun priority hp ↦ {
    seenSsid := by rw [hother _ hssid]; exact h.seenSsid
    ssid := by rw [hother _ hssid]; exact h.ssid
    psk := by rw [hother _ hpsk]; exact h.psk
    isOpen := by rw [hother _ hmgmt]; exact h.isOpen
    priority := hp }
  split at hcall
  · next hkey =>
    obtain ⟨n, hparse, rfl⟩ := Option.map_eq_some_iff.1 hcall
    refine hrest n ?_
    rw [priorityOf, hthis _ hkey, Option.bind_some, hparse, Option.getD_some]
  · next hkey =>
    obtain rfl := Option.some.inj hcall
    exact hrest c.priority (h.priority.trans (hprio hkey).symm)

/-! ### The running best -/

/-- The credentials are those of the network. -/
def Selects (creds : AppWifiCreds) (rs : List ZtpKv) : Prop :=
  lastOf (ascii "ssid") rs = some creds.ssid ∧ passwordOf rs = creds.psk

/-- What is staged is the best so far. -/
def BestSoFar (w : WifiStaging) (ns : List (List ZtpKv)) : Prop :=
  w.found = (bestOf parsePriority ns).isSome ∧ ∀ rs ∈ bestOf parsePriority ns,
    w.bestPriority = priorityOf parsePriority rs ∧ Selects w.best.creds rs

/-- The walk has the networks `done` behind it and is in the network `cur`, if in one. -/
structure Walks (w : WifiStaging) (done : List (List ZtpKv)) (cur : Option (List ZtpKv)) :
    Prop where
  inNetwork : w.inNetwork = cur.isSome
  reads : ∀ rs ∈ cur, Reads w.cur rs
  best : BestSoFar w done

/-- The password area has room for its NUL. -/
theorem length_nul_le : ([0] : List UInt8).length ≤ 65 := by decide

/-- The credentials that a section leaves. -/
def WifiCandidate.closed (c : WifiCandidate) : WifiCredsArea :=
  if c.isOpen then
    { c.creds with psk := c.creds.psk.write [0] length_nul_le, pskLen := WifiCredsArea.zero.pskLen }
  else c.creds

theorem Reads.selects (h : Reads c rs) (hseen : c.seenSsid = true) : Selects c.closed.creds rs := by
  obtain ⟨v, hv⟩ := Option.isSome_iff_exists.1 (h.seenSsid.symm.trans hseen)
  have hssid := h.ssid v hv
  have hopen := h.isOpen
  rw [Selects, hv, WifiCandidate.closed, passwordOf]
  rcases Bool.eq_false_or_eq_true c.isOpen with htrue | hfalse
  · rw [if_pos htrue, if_pos (of_decide_eq_true (hopen.symm.trans htrue))]
    exact ⟨congrArg some hssid.symm, rfl⟩
  · rw [if_neg (ne_true_of_eq_false hfalse),
      if_neg (of_decide_eq_false (hopen.symm.trans hfalse))]
    exact ⟨congrArg some hssid.symm, h.psk.symm⟩

section FirstMax

variable {α β : Type*} [LinearOrder β] {f g : α → β} {l : List α}

theorem firstMax_concat (f : α → β) (l : List α) (a : α) : firstMax f (l ++ [a]) =
    match firstMax f l with
    | none => some a
    | some b => if f b < f a then some a else some b := by
  rw [firstMax, firstMax, List.argmax_concat]
  cases l.argmax f <;> rfl

theorem firstMax_congr [DecidableEq α] (h : ∀ a ∈ l, f a = g a) : firstMax f l = firstMax g l := by
  refine Option.ext fun m ↦ ?_
  rw [firstMax, firstMax, List.argmax_eq_some_iff, List.argmax_eq_some_iff]
  refine and_congr_right fun hm ↦ ?_
  rw [h m hm]
  refine and_congr (forall₂_congr fun a ha ↦ ?_) (forall₂_congr fun a ha ↦ ?_) <;> rw [h a ha]

end FirstMax

/-- A network without an SSID does not count. -/
theorem bestOf_append_of_none (read : List UInt8 → Option ℤ) (ns : List (List ZtpKv))
    (h : lastOf (ascii "ssid") rs = none) : bestOf read (ns ++ [rs]) = bestOf read ns := by
  rw [bestOf, bestOf, List.filter_append, List.filter_singleton, h]
  exact congrArg _ (List.append_nil _)

/-- One with an SSID is the best if its priority is higher than all before it. -/
theorem bestOf_append_of_some (read : List UInt8 → Option ℤ) (ns : List (List ZtpKv))
    (h : (lastOf (ascii "ssid") rs).isSome = true) : bestOf read (ns ++ [rs]) =
      match bestOf read ns with
      | none => some rs
      | some b => if priorityOf read b < priorityOf read rs then some rs else some b := by
  rw [bestOf, bestOf, List.filter_append, List.filter_singleton, h, cond_true, firstMax_concat]
  generalize firstMax (priorityOf read) (ns.filter _) = best
  cases best <;> rfl

/-- The section is kept. -/
def KeepsSection (w : WifiStaging) : Prop :=
  w.inNetwork ∧ w.cur.seenSsid ∧ (¬ w.found ∨ w.cur.priority > w.bestPriority)

theorem closeSection_of_keeps (h : KeepsSection w) : w.closeSection =
    ⟨w.cur.closed, w.cur.priority, true, .zero, false⟩ := by
  rw [KeepsSection] at h
  rw [WifiStaging.closeSection]
  dsimp only
  rw [if_pos h]
  rfl

theorem closeSection_of_not_keeps (h : ¬ KeepsSection w) : w.closeSection =
    ⟨w.best, w.bestPriority, w.found, .zero, false⟩ := by
  rw [KeepsSection] at h
  rw [WifiStaging.closeSection]
  dsimp only
  rw [if_neg h]

/-- **Closing a section.** -/
theorem Walks.close {done : List (List ZtpKv)} {cur : Option (List ZtpKv)} (h : Walks w done cur) :
    BestSoFar w.closeSection (done ++ cur.toList) := by
  obtain ⟨hin, hreads, hfound, hbest⟩ := h
  cases cur with
  | none =>
    have hnot : ¬ KeepsSection w := fun hkeep ↦ Bool.false_ne_true (hin.symm.trans hkeep.1)
    rw [closeSection_of_not_keeps hnot, Option.toList_none, List.append_nil]
    exact ⟨hfound, hbest⟩
  | some rs =>
    have hrs := hreads rs rfl
    have hin' : w.inNetwork = true := hin
    rw [Option.toList_some]
    rcases Bool.eq_false_or_eq_true w.cur.seenSsid with hseen | hseen
    · have hsome := hrs.seenSsid.symm.trans hseen
      rw [BestSoFar, bestOf_append_of_some parsePriority done hsome]
      -- where the section is kept, it is the new best
      have hnew : KeepsSection w → w.closeSection.found = true ∧
          w.closeSection.bestPriority = priorityOf parsePriority rs ∧
            Selects w.closeSection.best.creds rs := fun hkeep ↦ by
        rw [closeSection_of_keeps hkeep]
        exact ⟨rfl, hrs.priority, hrs.selects hseen⟩
      cases hold : bestOf parsePriority done with
      | none =>
        rw [hold] at hfound
        have hkeep : KeepsSection w := ⟨hin', hseen, Or.inl (ne_true_of_eq_false hfound)⟩
        obtain ⟨hyes, hnew⟩ := hnew hkeep
        exact ⟨hyes, fun r hr ↦ Option.some.inj hr ▸ hnew⟩
      | some b =>
        rw [hold] at hfound
        obtain ⟨hprio, hsel⟩ := hbest b hold
        dsimp only
        split
        · next hlt =>
          have hkeep : KeepsSection w := ⟨hin', hseen, Or.inr (by
            rw [gt_iff_lt, hprio, hrs.priority]
            exact hlt)⟩
          obtain ⟨hyes, hnew⟩ := hnew hkeep
          exact ⟨hyes, fun r hr ↦ Option.some.inj hr ▸ hnew⟩
        · next hge =>
          have hnot : ¬ KeepsSection w := fun hkeep ↦ by
            rcases hkeep.2.2 with hno | hgt
            · exact hno hfound
            · rw [gt_iff_lt, hprio, hrs.priority] at hgt
              exact hge hgt
          rw [closeSection_of_not_keeps hnot]
          exact ⟨hfound, fun r hr ↦ Option.some.inj hr ▸ ⟨hprio, hsel⟩⟩
    · -- a section without a name is passed over
      have hnone := Option.not_isSome_iff_eq_none.1
        (ne_true_of_eq_false (hrs.seenSsid.symm.trans hseen))
      have hnot : ¬ KeepsSection w := fun hkeep ↦ Bool.false_ne_true (hseen.symm.trans hkeep.2.1)
      rw [closeSection_of_not_keeps hnot, BestSoFar, bestOf_append_of_none parsePriority done hnone]
      exact ⟨hfound, hbest⟩

/-! ### The walk -/

/-- The records of a section, and nothing of one that is no network. -/
theorem Walks.records {done : List (List ZtpKv)} {more : List ZtpKv} (h : Walks w done (some rs))
    (hrun : (more.map fun kv ↦ (name, some kv)).foldlM (iniCall wifiIni) w = .ok w') :
    Walks w' done (some (rs ++ more)) := by
  induction more generalizing w rs with
  | nil =>
    obtain rfl : w = w' := Except.ok.inj hrun
    rwa [List.append_nil]
  | cons kv more ih =>
    rw [List.map_cons] at hrun
    rcases Reader.foldlM_cons_cases (iniCall wifiIni) w (name, some kv)
      (more.map fun kv ↦ (name, some kv)) with ⟨e, -, hfold⟩ | ⟨w₁, hcall, hfold⟩
    · exact absurd (hfold.symm.trans hrun) (by simp)
    have hpair := eq_of_iniCall hcall
    rw [wifiIni_record h.inNetwork] at hpair
    cases hcand : candidateRecord w.cur kv with
    | none =>
      rw [hcand] at hpair
      exact absurd (Prod.mk.inj hpair).1 (by decide)
    | some c =>
      rw [hcand] at hpair
      obtain rfl : { w with cur := c } = w₁ := (Prod.mk.inj hpair).2
      have hnext : Walks { w with cur := c } done (some (rs ++ [kv])) :=
        ⟨h.inNetwork, fun r hr ↦ Option.some.inj hr ▸ (h.reads rs rfl).record hcand, h.best⟩
      rw [← List.singleton_append, ← List.append_assoc]
      exact ih hnext (hfold.symm.trans hrun)

/-- Records outside a network are not looked at. -/
theorem foldlM_ignored (h : w.inNetwork = false) (name : List UInt8) (rs : List ZtpKv) :
    (rs.map fun kv ↦ (name, some kv)).foldlM (iniCall wifiIni) w = .ok w := by
  induction rs with
  | nil => rfl
  | cons kv rs ih =>
    have hcall : wifiIni name (some kv) w = (0, w) := by
      rw [wifiIni]
      exact if_pos (ne_true_of_eq_false h)
    rw [List.map_cons, List.foldlM_cons, iniCall, hcall]
    exact ih

/-- The state in front of a section's records. -/
def WifiStaging.opened (w : WifiStaging) (name : List UInt8) : WifiStaging :=
  { w.closeSection with inNetwork := name = ascii "network" }

theorem foldlM_calls (w : WifiStaging) (sect : IniSection) :
    sect.calls.foldlM (iniCall wifiIni) w =
      (sect.records.map fun kv ↦ (sect.name, some kv)).foldlM (iniCall wifiIni)
        (w.opened sect.name) := rfl

theorem Walks.section {done : List (List ZtpKv)} {cur : Option (List ZtpKv)} {sect : IniSection}
    (h : Walks w done cur) (hrun : sect.calls.foldlM (iniCall wifiIni) w = .ok w') :
    Walks w' (done ++ cur.toList)
      (if sect.name = ascii "network" then some sect.records else none) := by
  have hbest : BestSoFar (w.opened sect.name) (done ++ cur.toList) := h.close
  rw [foldlM_calls] at hrun
  rcases Decidable.em (sect.name = ascii "network") with hname | hname
  · have hopened : Walks (w.opened sect.name) (done ++ cur.toList) (some []) :=
      ⟨decide_eq_true hname, fun r hr ↦ Option.some.inj hr ▸ reads_zero, hbest⟩
    rw [if_pos hname]
    exact hopened.records hrun
  · rw [foldlM_ignored (decide_eq_false hname)] at hrun
    obtain rfl := Except.ok.inj hrun
    rw [if_neg hname]
    exact ⟨decide_eq_false hname, nofun, hbest⟩

theorem Walks.sections {sections : List IniSection} {done : List (List ZtpKv)}
    {cur : Option (List ZtpKv)} (h : Walks w done cur)
    (hrun : sections.foldlM (fun w sect ↦ sect.calls.foldlM (iniCall wifiIni) w) w = .ok w') :
    BestSoFar w'.closeSection (done ++ cur.toList ++
      (sections.filter (·.name = ascii "network")).map IniSection.records) := by
  induction sections generalizing w done cur with
  | nil =>
    obtain rfl : w = w' := Except.ok.inj hrun
    rw [List.filter_nil, List.map_nil, List.append_nil]
    exact h.close
  | cons sect sections ih =>
    rcases Reader.foldlM_cons_cases (fun w (sect : IniSection) ↦ sect.calls.foldlM
      (iniCall wifiIni) w) w sect sections with ⟨e, -, hfold⟩ | ⟨w₁, hsect, hfold⟩
    · exact absurd (hfold.symm.trans hrun) (by simp)
    have hnext := ih (h.section hsect) (hfold.symm.trans hrun)
    rcases Decidable.em (sect.name = ascii "network") with hname | hname
    · rw [if_pos hname, Option.toList_some, List.append_assoc] at hnext
      rw [List.filter_cons, if_pos (decide_eq_true hname), List.map_cons]
      exact hnext
    · rw [if_neg hname, Option.toList_none, List.append_nil] at hnext
      rwa [List.filter_cons_of_neg (by simpa using hname)]

theorem foldlM_iniCalls (p : List UInt8) : (iniCalls p).foldlM (iniCall wifiIni) .zero =
    (iniSections p).foldlM (fun w sect ↦ sect.calls.foldlM (iniCall wifiIni) w) .zero := by
  rw [iniCalls, IniFile.calls, List.foldlM_append, foldlM_ignored rfl, ← Reader.foldlM_flatMap]
  rfl

/-- A network is refused for a bad record. -/
theorem foldlM_records_error_iff (h : w.inNetwork = true) :
    (∃ r, (rs.map fun kv ↦ (name, some kv)).foldlM (iniCall wifiIni) w = .error r) ↔
      ∃ kv ∈ rs, BadRecord StrayStart kv := by
  have hstep : ∀ kv ∈ rs, ∀ w w' : WifiStaging, w.inNetwork = true →
      iniCall wifiIni w (name, some kv) = .ok w' → w'.inNetwork = true := by
    intro kv _ w w' hin hcall
    have hpair := eq_of_iniCall hcall
    rw [wifiIni_record hin] at hpair
    cases hcand : candidateRecord w.cur kv with
    | none =>
      rw [hcand] at hpair
      exact absurd (Prod.mk.inj hpair).1 (by decide)
    | some c =>
      rw [hcand] at hpair
      exact (Prod.mk.inj hpair).2 ▸ hin
  have hfails : ∀ kv ∈ rs, ∀ w : WifiStaging, w.inNetwork = true →
      ((∃ r, iniCall wifiIni w (name, some kv) = .error r) ↔ BadRecord StrayStart kv) := by
    intro kv _ w hin
    rw [← candidateRecord_eq_none_iff (c := w.cur), iniCall, wifiIni_record hin]
    cases candidateRecord w.cur kv with
    | none => exact iff_of_true ⟨_, rfl⟩ rfl
    | some c => exact iff_of_false (by rintro ⟨r, hr⟩; exact absurd hr (by simp)) (by simp)
  rw [List.foldlM_map]
  exact Reader.foldlM_error_iff_of_invariant hstep hfails h

/-- **A walk is left early** exactly for a bad record. -/
theorem foldlM_iniCalls_error_iff : (∃ r, (iniCalls p).foldlM (iniCall wifiIni) .zero = .error r) ↔
    HasBadRecord StrayStart p := by
  have hsect : ∀ (w : WifiStaging) (sect : IniSection),
      (∃ r, sect.calls.foldlM (iniCall wifiIni) w = .error r) ↔
        sect.name = ascii "network" ∧ ∃ kv ∈ sect.records, BadRecord StrayStart kv := by
    intro w sect
    rw [foldlM_calls]
    rcases Decidable.em (sect.name = ascii "network") with hname | hname
    · rw [foldlM_records_error_iff (decide_eq_true hname), and_iff_right hname]
    · rw [foldlM_ignored (decide_eq_false hname)]
      exact iff_of_false (fun ⟨r, hr⟩ ↦ absurd hr (by simp)) fun hbad ↦ hname hbad.1
  rw [foldlM_iniCalls, Reader.foldlM_error_iff hsect, HasBadRecord, networks]
  simp only [List.mem_map, List.mem_filter, decide_eq_true_eq]
  constructor
  · rintro ⟨sect, hmem, hname, hbad⟩
    exact ⟨sect.records, ⟨sect, ⟨hmem, hname⟩, rfl⟩, hbad⟩
  · rintro ⟨-, ⟨sect, ⟨hmem, hname⟩, rfl⟩, hbad⟩
    exact ⟨sect, hmem, hname, hbad⟩

/-! ### The main result -/

theorem bestOf_eq_none_iff {read : List UInt8 → Option ℤ} {ns : List (List ZtpKv)} :
    bestOf read ns = none ↔ ∀ rs ∈ ns, lastOf (ascii "ssid") rs = none := by
  rw [bestOf, firstMax, List.argmax_eq_none, List.filter_eq_nil_iff]
  simp

/-- **What is accepted, and what is staged of it.** -/
theorem wifiStage_spec (p : List UInt8) :
    ((wifiStage p).1 = 0 ↔ ¬ HasBadRecord StrayStart p ∧ bestOf parsePriority (networks p) ≠ none) ∧
      ((wifiStage p).1 = 0 →
        some ((wifiStage p).2.best.creds.ssid, (wifiStage p).2.best.creds.psk) =
          chosen parsePriority p) := by
  have hrefused : (iniWalk wifiIni p .zero).1 = 0 ↔ ¬ HasBadRecord StrayStart p := by
    rw [iniWalk_eq_zero_iff, foldlM_iniCalls_error_iff]
  rw [wifiStage, ← hrefused]
  dsimp only
  rcases Decidable.em ((iniWalk wifiIni p .zero).1 = 0) with hrc | hrc
  · have hrun := foldlM_of_iniWalk hrc
    rw [foldlM_iniCalls] at hrun
    have hstart : Walks .zero [] none := ⟨rfl, nofun, rfl, nofun⟩
    obtain ⟨hfound, hbest⟩ : BestSoFar _ (networks p) := hstart.sections hrun
    rw [if_neg (not_not.2 hrc), and_iff_right hrc]
    cases hb : bestOf parsePriority (networks p) with
    | none =>
      rw [hb] at hfound
      rw [if_pos (ne_true_of_eq_false hfound)]
      have hne : ¬ enodata = 0 := by decide
      exact ⟨iff_of_false hne (by simp), fun h ↦ absurd h hne⟩
    | some rs =>
      rw [hb, Option.isSome_some] at hfound
      rw [if_neg (not_not.2 hfound)]
      obtain ⟨-, hssid, hpsk⟩ := hbest rs hb
      refine ⟨iff_of_true rfl (by simp), fun _ ↦ ?_⟩
      rw [chosen, hb, Option.bind_some, hssid, Option.map_some, hpsk]
  · rw [if_pos hrc]
    exact ⟨iff_of_false hrc fun h ↦ hrc h.1, fun h ↦ absurd h hrc⟩

/-- Six characters of each priority are enough: a body is refused for a bad start, or has no network
with an SSID, or has only integers for priorities, of which the first six characters lead to the
same network. -/
def SixSuffice (p : List UInt8) : Prop :=
  HasBadRecord StrayStart p ∨ (∀ rs ∈ networks p, lastOf (ascii "ssid") rs = none) ∨
    (∀ rs ∈ networks p, ∀ v ∈ valuesOf (ascii "priority") rs, ¬ NotInteger v) ∧
      chosen integerOfSix p = chosen integer p

/-- Only the values of the priorities count. -/
theorem chosen_congr {read read' : List UInt8 → Option ℤ}
    (h : ∀ rs ∈ networks p, ∀ v ∈ valuesOf (ascii "priority") rs, read v = read' v) :
    chosen read p = chosen read' p := by
  have hprio : ∀ rs ∈ networks p, priorityOf read rs = priorityOf read' rs := by
    intro rs hrs
    rw [priorityOf, priorityOf]
    cases hlast : lastOf (ascii "priority") rs with
    | none => rfl
    | some v => rw [Option.bind_some, Option.bind_some, h rs hrs v (List.mem_of_getLast? hlast)]
  rw [chosen, chosen, bestOf, bestOf,
    firstMax_congr fun rs hrs ↦ hprio rs (List.mem_of_mem_filter hrs)]

/-- Of integers, `wifi_ini` reads the first six characters. -/
theorem chosen_parsePriority
    (h : ∀ rs ∈ networks p, ∀ v ∈ valuesOf (ascii "priority") rs, ¬ NotInteger v) :
    chosen parsePriority p = chosen integerOfSix p :=
  chosen_congr fun rs hrs v hv ↦ parsePriority_of_integer (h rs hrs v hv)

/-- **When the right network is chosen**: exactly when six characters of each priority suffice. -/
theorem choosesRight_iff (p : List UInt8) : ChoosesRight p ↔ SixSuffice p := by
  obtain ⟨haccepted, hstaged⟩ := wifiStage_spec p
  rw [Ne, bestOf_eq_none_iff] at haccepted
  constructor
  · rintro ⟨hright, hrefused⟩
    rcases Classical.em (HasBadRecord StrayStart p) with hbad | hgood
    · exact Or.inl hbad
    rcases Classical.em (∀ rs ∈ networks p, lastOf (ascii "ssid") rs = none) with hnone | hsome
    · exact Or.inr (Or.inl hnone)
    have hrc := haccepted.2 ⟨hgood, hsome⟩
    have hint : ∀ rs ∈ networks p, ∀ v ∈ valuesOf (ascii "priority") rs, ¬ NotInteger v :=
      fun rs hrs v hv hnot ↦ hrefused
        ⟨rs, hrs, _, mem_valuesOf.1 hv, Or.inr (Or.inr ⟨rfl, hnot⟩)⟩ hrc
    refine Or.inr (Or.inr ⟨hint, ?_⟩)
    rw [← chosen_parsePriority hint, ← hstaged hrc, hright hrc]
  · intro h
    constructor
    · intro hrc
      obtain ⟨hgood, hsome⟩ := haccepted.1 hrc
      obtain ⟨hint, hsame⟩ := (h.resolve_left hgood).resolve_left hsome
      rw [hstaged hrc, chosen_parsePriority hint, hsame]
    · rintro ⟨rs, hrs, kv, hkv, hbad⟩ hrc
      obtain ⟨hgood, hsome⟩ := haccepted.1 hrc
      obtain ⟨hint, -⟩ := (h.resolve_left hgood).resolve_left hsome
      refine hgood ⟨rs, hrs, kv, hkv, hbad.imp_right (Or.imp_right fun ⟨hkey, hnot⟩ ↦ ?_)⟩
      exact absurd hnot (hint rs hrs kv.val (mem_valuesOf.2 (hkey ▸ hkv)))

/-- Two networks, of which the second has the higher priority. -/
def longPriority : List UInt8 :=
  ascii "[network]\nssid=a\npriority=200000\n[network]\nssid=b\npriority=1000000\n"

/-- The first one is staged. -/
theorem not_choosesRight_longPriority : ¬ ∀ p, ChoosesRight p := by
  intro h
  exact absurd ((h longPriority).1 (by decide +kernel)) (by decide +kernel)

end ThinEdge.Provisioner

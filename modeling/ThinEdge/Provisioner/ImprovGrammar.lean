import Mathlib.Algebra.Order.Ring.Nat
import Mathlib.Data.List.Basic
import ThinEdge.Provisioner.Improv

/-!
# Improv: which frames are accepted

The Bluetooth context queues settings for a frame exactly when the frame is a settings frame:
command, length, the SSID and the password each behind its length, and the checksum
(`SettingsFrame`). `toHandle` is the state in which `write_rpc` calls `handle_frame`, when it does,
and `assembled` the frame it passes.

`handle_frame` reads its buffer by index, behind a chain of length checks. `handleFrameChecked` is
the same function with every read checked against the number of bytes received, and no check fails
(`handleFrameChecked_eq`).
-/

namespace ThinEdge.Provisioner

open Net Transition

/-! ### The grammar -/

/-- A frame that sets an SSID of 1 to 32 bytes and a password of at most 64. -/
def SettingsFrame (ssid psk f : List UInt8) : Prop :=
  1 ≤ ssid.length ∧ ssid.length ≤ 32 ∧ psk.length ≤ 64 ∧
    ∃ len ssidLen pskLen sum : UInt8,
      f = [1, len, ssidLen] ++ ssid ++ [pskLen] ++ psk ++ [sum] ∧
      len.toNat = ssid.length + psk.length + 2 ∧ ssidLen.toNat = ssid.length ∧
      pskLen.toNat = psk.length ∧ sum.toNat = (f.dropLast.map UInt8.toNat).sum % 256

/-! ### The frame that is handled -/

/-- The bytes appended at `rx_len` complete a frame. -/
def ImprovShared.Completes (s : ImprovShared) (bytes : List UInt8) : Prop :=
  s.rxLen + bytes.length ≤ frameMax ∧ 2 ≤ (s.received bytes).rxLen ∧
    (s.received bytes).frameLength ≤ (s.received bytes).rxLen

instance (s : ImprovShared) (bytes : List UInt8) : Decidable (s.Completes bytes) :=
  inferInstanceAs (Decidable (_ ∧ _))

/-- The state in which `write_rpc` appends the bytes of a write: a write at offset 0 starts over
unless it continues a frame. -/
def appendsTo (s : ImprovShared) (now : ℕ) (w : GattWrite) : Option ImprovShared :=
  if w.prepare then none
  else if w.offset = 0 then
    some { s with rxLen := if s.continuing now w then s.rxLen else 0, rxLast := now }
  else if w.offset ≠ s.rxLen then none
  else some { s with rxLast := now }

/-- The state in which `write_rpc` calls `handle_frame`, when it does. -/
def toHandle (s : ImprovShared) (now : ℕ) (w : GattWrite) : Option ImprovShared :=
  (appendsTo s now w).bind fun t ↦ if t.Completes w.bytes then some (t.received w.bytes) else none

/-- The bytes received. -/
def ImprovShared.rxBytes (s : ImprovShared) : List UInt8 := s.rxBuf.take s.rxLen

/-- The frame that a write completes. -/
def assembled (s : ImprovShared) (now : ℕ) (w : GattWrite) : Option (List UInt8) :=
  (toHandle s now w).map ImprovShared.rxBytes

/-- The receive buffer has its size, and no more is received than it holds. -/
structure RxInv (s : ImprovShared) : Prop where
  length_rxBuf : s.rxBuf.length = frameMax
  rxLen_le : s.rxLen ≤ frameMax

variable {s t r : ImprovShared} {bytes : List UInt8} {now : ℕ} {w : GattWrite}

theorem RxInv.received (h : RxInv s) (hfit : s.rxLen + bytes.length ≤ frameMax) :
    RxInv (s.received bytes) := by
  refine ⟨?_, hfit⟩
  rw [ImprovShared.received]
  dsimp only
  rw [List.length_append, List.length_append, List.length_take, List.length_drop, h.length_rxBuf]
  omega

theorem appendRpc_of_completes (h : s.Completes bytes) :
    appendRpc s bytes =
      { handleFrame (s.received bytes) (s.received bytes).rxBuf (s.received bytes).rxLen with
        rxBuf := List.replicate frameMax 0, rxLen := 0 } := by
  rw [appendRpc, if_neg (Nat.not_lt.2 h.1)]
  dsimp only
  rw [if_pos h.2]

theorem appendRpc_of_not_completes (h : ¬ s.Completes bytes) : Unmoved s (appendRpc s bytes) := by
  rw [appendRpc]
  split_ifs with hlong
  · exact ⟨rfl, rfl⟩
  · dsimp only
    rw [if_neg fun hready ↦ h ⟨Nat.not_lt.1 hlong, hready⟩]
    exact ⟨rfl, rfl⟩

theorem writeRpc_eq (s : ImprovShared) (now : ℕ) (w : GattWrite) :
    (writeRpc s now w).1 = (appendsTo s now w).elim s fun t ↦ appendRpc t w.bytes := by
  rw [writeRpc, appendsTo]
  split_ifs
  · rfl
  · rfl
  · rfl
  · rfl
  · rfl

theorem appendsTo_eq_some (h : appendsTo s now w = some t) :
    Unmoved s t ∧ t.rxBuf = s.rxBuf ∧ t.rxLen ≤ s.rxLen := by
  rw [appendsTo] at h
  split_ifs at h with hprep hoff hcont
  · obtain rfl := Option.some.inj h
    exact ⟨⟨rfl, rfl⟩, rfl, Nat.le_refl _⟩
  · obtain rfl := Option.some.inj h
    exact ⟨⟨rfl, rfl⟩, rfl, Nat.zero_le _⟩
  · obtain rfl := Option.some.inj h
    exact ⟨⟨rfl, rfl⟩, rfl, Nat.le_refl _⟩

theorem toHandle_eq_some (h : toHandle s now w = some r) :
    ∃ t, appendsTo s now w = some t ∧ t.Completes w.bytes ∧ r = t.received w.bytes := by
  obtain ⟨t, happ, hr⟩ := Option.bind_eq_some_iff.1 h
  split_ifs at hr with hcompl
  exact ⟨t, happ, hcompl, (Option.some.inj hr).symm⟩

/-- **A write that completes a frame handles it**, in the state the device is in. -/
theorem writeRpc_of_toHandle (h : toHandle s now w = some r) :
    (writeRpc s now w).1 =
        { handleFrame r r.rxBuf r.rxLen with rxBuf := List.replicate frameMax 0, rxLen := 0 } ∧
      Unmoved s r := by
  obtain ⟨t, happ, hcompl, rfl⟩ := toHandle_eq_some h
  rw [writeRpc_eq, happ]
  exact ⟨appendRpc_of_completes hcompl, (appendsTo_eq_some happ).1⟩

/-- A write that completes no frame leaves the state and the queue. -/
theorem writeRpc_of_not_toHandle (h : toHandle s now w = none) :
    Unmoved s (writeRpc s now w).1 := by
  rw [writeRpc_eq]
  rw [toHandle] at h
  rcases happ : appendsTo s now w with - | t
  · exact Unmoved.refl s
  · rw [happ, Option.bind_some] at h
    split_ifs at h with hcompl
    obtain ⟨hstate, hq⟩ := (appendsTo_eq_some happ).1
    obtain ⟨hstate', hq'⟩ := appendRpc_of_not_completes hcompl
    exact ⟨hstate'.trans hstate, hq'.trans hq⟩

/-! ### The settings in a frame -/

theorem toNat_checksum (f : List UInt8) (n : ℕ) :
    (checksum f n).toNat = ((f.take n).map UInt8.toNat).sum % 256 := by
  have hfold : ∀ (bs : List UInt8) (a : UInt8),
      (bs.foldl (· + ·) a).toNat = (a.toNat + (bs.map UInt8.toNat).sum) % 256 := by
    intro bs
    induction bs with
    | nil =>
      intro a
      rw [List.foldl_nil, List.map_nil, List.sum_nil, Nat.add_zero, Nat.mod_eq_of_lt a.toNat_lt]
    | cons b bs ih =>
      intro a
      rw [List.foldl_cons, ih, List.map_cons, List.sum_cons, UInt8.toNat_add]
      omega
  rw [checksum, hfold, UInt8.toNat_zero, Nat.zero_add]

/-- The bytes of the SSID in a frame. -/
def ssidLenOf (f : List UInt8) : ℕ := (f.getD 2 0).toNat

/-- The bytes of the password in a frame. -/
def pskLenOf (f : List UInt8) : ℕ := (f.getD (3 + ssidLenOf f) 0).toNat

/-- `parse_settings` by the positions of its fields. -/
theorem parseSettings_eq_some_iff {f : List UInt8} {len : ℕ} {creds : AppWifiCreds} :
    parseSettings f len = some creds ↔
      (1 ≤ ssidLenOf f ∧ ssidLenOf f ≤ 32 ∧ pskLenOf f ≤ 64 ∧
        ssidLenOf f + pskLenOf f + 2 = len) ∧
      creds.ssid = (f.drop 3).take (ssidLenOf f) ∧
      creds.psk = (f.drop (4 + ssidLenOf f)).take (pskLenOf f) := by
  have hget : ∀ i, (f.drop 2).getD i 0 = f.getD (2 + i) 0 := fun i ↦ by
    rw [List.getD_eq_getElem?_getD, List.getElem?_drop, ← List.getD_eq_getElem?_getD]
  have hpskLen : (f.getD (2 + (1 + ssidLenOf f)) 0).toNat = pskLenOf f := by
    rw [pskLenOf, show 2 + (1 + ssidLenOf f) = 3 + ssidLenOf f by omega]
  have hpskDrop : 2 + (2 + ssidLenOf f) = 4 + ssidLenOf f := by omega
  obtain ⟨ssid, psk, hssid, hpsk⟩ := creds
  simp only [parseSettings, hget, List.drop_drop]
  rcases Nat.lt_or_ge len 2 with hshort | hlen
  · rw [dif_pos (Or.inl hshort)]
    exact ⟨by rintro ⟨⟩, fun h ↦ by omega⟩
  · have hssidLen : (if 1 ≤ len then (f.getD (2 + 0) 0).toNat else 0) = ssidLenOf f :=
      if_pos (by omega)
    simp only [hssidLen, hpskLen, hpskDrop]
    split
    · exact ⟨by rintro ⟨⟩, fun h ↦ by omega⟩
    split
    · exact ⟨by rintro ⟨⟩, fun h ↦ by omega⟩
    · rw [Option.some.injEq, AppWifiCreds.mk.injEq, eq_comm, @eq_comm _ _ psk]
      exact ⟨fun h ↦ ⟨by omega, h⟩, fun h ↦ h.2⟩

/-- A list cut into the fields of a frame. -/
theorem frame_fields {f : List UInt8} {m n : ℕ} (h : f.length = m + n + 5) :
    ∃ cmd len ssidLen pskLen sum,
      f = [cmd, len, ssidLen] ++ (f.drop 3).take m ++ [pskLen] ++ (f.drop (4 + m)).take n ++ [sum] ∧
      f.getD 0 0 = cmd ∧ f.getD 1 0 = len ∧ f.getD 2 0 = ssidLen ∧ f.getD (3 + m) 0 = pskLen ∧
      f.getD (f.length - 1) 0 = sum := by
  rcases f with - | ⟨cmd, - | ⟨len, - | ⟨ssidLen, rest⟩⟩⟩
  · simp at h
  · simp at h
  · simp at h
  simp only [List.length_cons] at h
  -- the second length stands behind the first text, the checksum behind the second
  obtain ⟨pskLen, tail, htail⟩ : ∃ p q, rest.drop m = p :: q :=
    List.exists_cons_of_length_pos (by rw [List.length_drop]; omega)
  have htailLen : tail.length = n + 1 := by
    have := congrArg List.length htail
    rw [List.length_drop, List.length_cons] at this
    omega
  obtain ⟨sum, hsum⟩ : ∃ x, tail.drop n = [x] :=
    List.length_eq_one_iff.1 (by rw [List.length_drop]; omega)
  have hdrop : (cmd :: len :: ssidLen :: rest).drop (4 + m) = tail := by
    rw [show 4 + m = m + 1 + 1 + 1 + 1 by omega, List.drop_succ_cons, List.drop_succ_cons,
      List.drop_succ_cons, ← List.drop_drop, htail, List.drop_one, List.tail_cons]
  have hrest : rest = rest.take m ++ pskLen :: (tail.take n ++ [sum]) := by
    rw [← hsum, List.take_append_drop, ← htail, List.take_append_drop]
  have hlen : (rest.take m).length = m := by
    rw [List.length_take]
    omega
  refine ⟨cmd, len, ssidLen, pskLen, sum, ?_, rfl, rfl, rfl, ?_, ?_⟩
  · rw [hdrop]
    simpa using hrest
  · rw [show 3 + m = m + 1 + 1 + 1 by omega, List.getD_cons_succ, List.getD_cons_succ,
      List.getD_cons_succ, hrest, List.getD_eq_getElem?_getD, List.getElem?_append_right (by omega),
      hlen, Nat.sub_self]
    rfl
  · have hlast : (cmd :: len :: ssidLen :: rest).getLast? = some sum := by
      have hconcat : cmd :: len :: ssidLen :: rest =
          cmd :: len :: ssidLen :: (rest.take m ++ pskLen :: tail.take n) ++ [sum] := by
        conv_lhs => rw [hrest]
        simp
      rw [hconcat, List.getLast?_concat]
    rw [List.getD_eq_getElem?_getD, ← List.getLast?_eq_getElem?, hlast]
    rfl

/-- **The settings frames**: `handle_frame`'s checks on a frame of `n` bytes pass, and it finds
these settings, exactly when the frame is the settings frame of them. -/
theorem settingsFrame_iff {f : List UInt8} {creds : AppWifiCreds} :
    (f.length = (f.getD 1 0).toNat + 3 ∧ checksum f (f.length - 1) = f.getD (f.length - 1) 0 ∧
        f.getD 0 0 = cmdWifiSettings ∧ parseSettings f (f.getD 1 0).toNat = some creds) ↔
      SettingsFrame creds.ssid creds.psk f := by
  constructor
  · rintro ⟨hlen, hsum, hcmd, hparse⟩
    obtain ⟨⟨hpos, hssid, hpsk, hfit⟩, hssidEq, hpskEq⟩ := parseSettings_eq_some_iff.1 hparse
    -- the two lengths and the five other bytes make up the frame
    have hfields : f.length = ssidLenOf f + pskLenOf f + 5 := by omega
    obtain ⟨cmd, len, ssidLen, pskLen, sum, hf, hcmd', hlen', hssidLen, hpskLen, hsum'⟩ :=
      frame_fields hfields
    have hssidLength : creds.ssid.length = ssidLenOf f := by
      rw [hssidEq, List.length_take, List.length_drop]
      omega
    have hpskLength : creds.psk.length = pskLenOf f := by
      rw [hpskEq, List.length_take, List.length_drop]
      omega
    refine ⟨by omega, by omega, by omega, len, ssidLen, pskLen, sum, ?_, ?_, ?_, ?_, ?_⟩
    · rw [hssidEq, hpskEq, ← show cmd = 1 from hcmd'.symm.trans hcmd]
      exact hf
    · rw [← hlen', hssidLength, hpskLength]
      exact hfit.symm
    · rw [← hssidLen, hssidLength]
      rfl
    · rw [← hpskLen, hpskLength]
      rfl
    · rw [← hsum', ← hsum, toNat_checksum, ← List.dropLast_eq_take]
  · rintro ⟨hpos, hssid, hpsk, len, ssidLen, pskLen, sum, hf, hlen, hssidLen, hpskLen, hsum⟩
    -- each field is read where the fields before it end
    have hdrop : f.drop 3 = creds.ssid ++ (pskLen :: (creds.psk ++ [sum])) := by
      rw [hf]
      simp
    have hdrop' : f.drop (4 + creds.ssid.length) = creds.psk ++ [sum] := by
      rw [show 4 + creds.ssid.length = 3 + (creds.ssid.length + 1) by omega, ← List.drop_drop,
        hdrop, List.drop_append, List.drop_of_length_le (Nat.le_succ _), List.nil_append,
        Nat.add_sub_cancel_left, List.drop_one, List.tail_cons]
    have hlength : f.length = creds.ssid.length + creds.psk.length + 5 := by
      rw [hf]
      simp only [List.length_append, List.length_cons, List.length_nil]
      omega
    have hlenOf : f.getD 1 0 = len := by
      rw [hf]
      rfl
    have hssidOf : ssidLenOf f = creds.ssid.length := by
      rw [ssidLenOf, ← hssidLen, hf]
      rfl
    have hpskOf : pskLenOf f = creds.psk.length := by
      rw [pskLenOf, hssidOf, List.getD_eq_getElem?_getD, ← List.getElem?_drop, hdrop,
        List.getElem?_append_right (Nat.le_refl _), Nat.sub_self, ← hpskLen]
      rfl
    have hlast : f.getD (f.length - 1) 0 = sum := by
      rw [List.getD_eq_getElem?_getD, ← List.getLast?_eq_getElem?]
      conv_lhs => rw [hf]
      rw [List.getLast?_concat]
      rfl
    refine ⟨?_, ?_, ?_, parseSettings_eq_some_iff.2 ⟨⟨?_, ?_, ?_, ?_⟩, ?_, ?_⟩⟩
    · rw [hlenOf, hlen, hlength]
    · rw [hlast, ← UInt8.toNat_inj, toNat_checksum, ← List.dropLast_eq_take, hsum]
    · rw [hf]
      rfl
    · rw [hssidOf]
      exact hpos
    · rw [hssidOf]
      exact hssid
    · rw [hpskOf]
      exact hpsk
    · rw [hssidOf, hpskOf, hlenOf, hlen]
    · rw [hssidOf, hdrop, List.take_left']
      rfl
    · rw [hssidOf, hpskOf, hdrop', List.take_left']
      rfl

/-! ### Reads inside the frame -/

/-- `len` bytes of the frame from `i` on, when it has them. -/
def readSlice (f : List UInt8) (i len : ℕ) : Option (List UInt8) :=
  if i + len ≤ f.length then some ((f.drop i).take len) else none

/-- `parseSettings` with checked reads: `none` when a byte behind the end is read, or one written
behind the end of the credentials. -/
def parseSettingsChecked (f : List UInt8) (len : ℕ) : Option (Option AppWifiCreds) := do
  let ssidLen ← if 1 ≤ len then f[2]?.map UInt8.toNat else some 0
  if len < 2 ∨ ssidLen = 0 ∨ 32 < ssidLen ∨ len < ssidLen + 2 then some none
  else
    let pskLen ← f[3 + ssidLen]?.map UInt8.toNat
    if 64 < pskLen ∨ ssidLen + pskLen + 2 ≠ len then some none
    else
      let ssid ← readSlice f 3 ssidLen
      let psk ← readSlice f (4 + ssidLen) pskLen
      if h : ssid.length < 33 ∧ psk.length < 65 then some (some ⟨ssid, psk, h.1, h.2⟩) else none

/-- `handle_frame` of the bytes of a frame, with checked reads. -/
def handleFrameChecked (s : ImprovShared) (f : List UInt8) : Option ImprovShared := do
  let cmd ← f[0]?
  let len ← f[1]?.map UInt8.toNat
  if f.length ≠ len + 3 then some { s with curError := .invalidRpc }
  else
    let summed ← readSlice f 0 (f.length - 1)
    let sum ← f[f.length - 1]?
    if checksum summed summed.length ≠ sum then some { s with curError := .invalidRpc }
    else if cmd = cmdIdentify then some { s with curError := .none }
    else if cmd = cmdWifiSettings then
      let settings ← parseSettingsChecked f len
      some (settings.elim { s with curError := .invalidRpc } (handleSettings s))
    else some { s with curError := .unknownRpc }

theorem getElem?_take_eq {buf : List UInt8} {n i : ℕ} (hn : n ≤ buf.length) (hi : i < n) :
    (buf.take n)[i]? = some (buf.getD i 0) := by
  rw [List.getElem?_take_of_lt hi, List.getD_eq_getElem?_getD,
    List.getElem?_eq_getElem (Nat.lt_of_lt_of_le hi hn)]
  rfl

theorem readSlice_take {buf : List UInt8} {n i len : ℕ} (hn : n ≤ buf.length) (hi : i + len ≤ n) :
    readSlice (buf.take n) i len = some ((buf.drop i).take len) := by
  have hlen : (buf.take n).length = n := List.length_take_of_le hn
  rw [readSlice, if_pos (by omega), List.drop_take, List.take_take, Nat.min_eq_left (by omega)]

theorem parseSettings_eq_none {f : List UInt8} {len : ℕ}
    (h : ¬ (1 ≤ ssidLenOf f ∧ ssidLenOf f ≤ 32 ∧ pskLenOf f ≤ 64 ∧
      ssidLenOf f + pskLenOf f + 2 = len)) : parseSettings f len = none :=
  Option.eq_none_iff_forall_ne_some.2 fun _ hsome ↦ h (parseSettings_eq_some_iff.1 hsome).1

/-- **The settings are parsed inside the frame.** -/
theorem parseSettingsChecked_eq {buf : List UInt8} {len : ℕ} (hn : len + 3 ≤ buf.length) :
    parseSettingsChecked (buf.take (len + 3)) len = some (parseSettings buf len) := by
  rw [parseSettingsChecked]
  rcases Nat.lt_or_ge len 2 with hshort | hlen
  · rw [parseSettings_eq_none (by omega), getElem?_take_eq hn (by omega)]
    split_ifs <;> simp [hshort]
  rw [if_pos (by omega), getElem?_take_eq hn (by omega), Option.map_some, Option.bind_eq_bind,
    Option.bind_some, ← ssidLenOf]
  beta_reduce
  rcases Decidable.em (len < 2 ∨ ssidLenOf buf = 0 ∨ 32 < ssidLenOf buf ∨ len < ssidLenOf buf + 2)
    with hssid | hssid
  · rw [if_pos hssid, parseSettings_eq_none (by omega)]
  rw [if_neg hssid, getElem?_take_eq hn (by omega), Option.map_some, Option.bind_some,
    ← pskLenOf]
  rcases Decidable.em (64 < pskLenOf buf ∨ ssidLenOf buf + pskLenOf buf + 2 ≠ len) with hpsk | hpsk
  · rw [if_pos hpsk, parseSettings_eq_none (by omega)]
  rw [if_neg hpsk, readSlice_take hn (by omega), Option.bind_eq_bind, Option.bind_some,
    readSlice_take hn (by omega), Option.bind_some]
  have hlt : ((buf.drop 3).take (ssidLenOf buf)).length < 33 ∧
      ((buf.drop (4 + ssidLenOf buf)).take (pskLenOf buf)).length < 65 := by
    rw [List.length_take, List.length_take]
    omega
  have hparse : parseSettings buf len = some ⟨(buf.drop 3).take (ssidLenOf buf),
      (buf.drop (4 + ssidLenOf buf)).take (pskLenOf buf), hlt.1, hlt.2⟩ :=
    parseSettings_eq_some_iff.2 ⟨by omega, rfl, rfl⟩
  rw [dif_pos hlt, hparse]

/-- **`handle_frame` reads only inside the received bytes**, and depends on no others. -/
theorem handleFrameChecked_eq (s : ImprovShared) {buf : List UInt8} {n : ℕ} (h2 : 2 ≤ n)
    (hn : n ≤ buf.length) : handleFrameChecked s (buf.take n) = some (handleFrame s buf n) := by
  have hlen : (buf.take n).length = n := List.length_take_of_le hn
  rw [handleFrameChecked, handleFrame, hlen, getElem?_take_eq hn (by omega),
    getElem?_take_eq hn (by omega)]
  simp only [Option.map_some, Option.bind_eq_bind, Option.bind_some]
  rcases Decidable.em (n = (buf.getD 1 0).toNat + 3) with hfit | hne
  · rw [if_neg (not_not.2 hfit), readSlice_take hn (by omega), Option.bind_some,
      getElem?_take_eq hn (by omega), Option.bind_some]
    have hsummed : checksum ((buf.drop 0).take (n - 1)) ((buf.drop 0).take (n - 1)).length =
        checksum buf (n - 1) := by
      rw [List.drop_zero, checksum, List.take_length, checksum]
    rw [hsummed]
    rcases Decidable.em (checksum buf (n - 1) ≠ buf.getD (n - 1) 0) with hsum | hsum
    · rw [if_pos hsum, if_pos (Or.inr hsum)]
    have hgood : ¬ (n ≠ (buf.getD 1 0).toNat + 3 ∨ checksum buf (n - 1) ≠ buf.getD (n - 1) 0) :=
      fun h ↦ h.elim (fun hne ↦ hne hfit) hsum
    rw [if_neg hsum, if_neg hgood]
    obtain ⟨len, hlenOf⟩ : ∃ len, (buf.getD 1 0).toNat = len := ⟨_, rfl⟩
    rw [hlenOf] at hfit ⊢
    subst hfit
    rw [parseSettingsChecked_eq hn]
    split_ifs
    · rfl
    · rw [Option.bind_some]
      cases parseSettings buf len with
      | none => rfl
      | some creds => rfl
    · rfl
  · rw [if_pos hne, if_pos (Or.inl hne)]

/-! ### What is queued -/

theorem handleSettings_queues_iff {s : ImprovShared} {creds c : AppWifiCreds} :
    (handleSettings s creds).provQ = s.provQ ++ [.settings c] ↔
      s.curState = .authorized ∧ s.provQ.length < provQSize ∧ creds = c := by
  have hne : ∀ m : ProvMsg, s.provQ ≠ s.provQ ++ [m] := fun m h ↦ by
    have := congrArg List.length h
    rw [List.length_append, List.length_singleton] at this
    omega
  rw [handleSettings]
  split
  · next h => exact iff_of_false (hne _) fun hc ↦ ImprovState.noConfusion (h.symm.trans hc.1)
  · next h =>
    rw [acceptSettings]
    rcases Nat.lt_or_ge s.provQ.length provQSize with hroom | hfull
    · rw [msgqPut_of_lt hroom]
      dsimp only
      rw [List.append_cancel_left_eq, List.cons.injEq, ProvMsg.settings.injEq]
      exact ⟨fun hc ↦ ⟨h, hroom, hc.1⟩, fun hc ↦ ⟨hc.2.2, rfl⟩⟩
    · rw [msgqPut_of_le hfull]
      exact iff_of_false (hne _) fun hc ↦ absurd hc.2.1 (Nat.not_lt.2 hfull)
  · next h => exact iff_of_false (hne _) fun hc ↦ ImprovState.noConfusion (h.symm.trans hc.1)
  · next h => exact iff_of_false (hne _) fun hc ↦ ImprovState.noConfusion (h.symm.trans hc.1)

/-- **`handle_frame` queues exactly the settings of a settings frame**, in an authorized device with
room in the queue. -/
theorem handleFrame_queues_iff {s : ImprovShared} {f : List UInt8} {c : AppWifiCreds} :
    (handleFrame s f f.length).provQ = s.provQ ++ [.settings c] ↔
      s.curState = .authorized ∧ s.provQ.length < provQSize ∧ SettingsFrame c.ssid c.psk f := by
  have hne : s.provQ ≠ s.provQ ++ [.settings c] := fun h ↦ by
    have := congrArg List.length h
    rw [List.length_append, List.length_singleton] at this
    omega
  rw [← settingsFrame_iff]
  simp only [handleFrame]
  split
  · next h =>
    refine iff_of_false hne fun hc ↦ ?_
    exact h.elim (fun hlen ↦ hlen hc.2.2.1) fun hsum ↦ hsum hc.2.2.2.1
  next hgood =>
  rw [not_or, not_not, not_not] at hgood
  split
  · next h =>
    exact iff_of_false hne fun hc ↦ absurd (h.symm.trans hc.2.2.2.2.1) (by decide)
  split
  · next hcmd =>
    split
    · next creds hparse =>
      rw [handleSettings_queues_iff, hparse, Option.some.injEq]
      exact ⟨fun h ↦ ⟨h.1, h.2.1, hgood.1, hgood.2, hcmd, h.2.2⟩,
        fun h ↦ ⟨h.1, h.2.1, h.2.2.2.2.2⟩⟩
    · next hparse =>
      exact iff_of_false hne fun hc ↦ nomatch hparse.symm.trans hc.2.2.2.2.2
  · next hcmd => exact iff_of_false hne fun hc ↦ hcmd hc.2.2.2.2.1

/-- The length byte of a settings frame is right, and the frame fits the buffer. -/
theorem SettingsFrame.length_eq {ssid psk f : List UInt8} (h : SettingsFrame ssid psk f) :
    f.length = (f.getD 1 0).toNat + 3 ∧ f.length ≤ frameMax ∧ 2 ≤ f.length := by
  obtain ⟨-, hssid, hpsk, len, ssidLen, pskLen, sum, rfl, hlen, -⟩ := h
  have hget : ([1, len, ssidLen] ++ ssid ++ [pskLen] ++ psk ++ [sum]).getD 1 0 = len := rfl
  have hlength : ([1, len, ssidLen] ++ ssid ++ [pskLen] ++ psk ++ [sum]).length =
      ssid.length + psk.length + 5 := by
    simp only [List.length_append, List.length_cons, List.length_nil]
    omega
  rw [hget, hlength, hlen, show frameMax = 101 from rfl]
  omega

/-- **A settings frame in one write is the frame that is handled**, when nothing was left to
continue. -/
theorem SettingsFrame.assembled {ssid psk : List UInt8} (h : SettingsFrame ssid psk w.bytes)
    (hprepare : w.prepare = false) (hoffset : w.offset = 0) (hidle : s.rxLen = 0) :
    assembled s now w = some w.bytes := by
  obtain ⟨hlen, hmax, htwo⟩ := h.length_eq
  have happ : appendsTo s now w = some { s with rxLen := 0, rxLast := now } := by
    rw [appendsTo, if_neg (ne_true_of_eq_false hprepare), if_pos hoffset, hidle, ite_self]
  have hreceived : ({ s with rxLen := 0, rxLast := now } : ImprovShared).received w.bytes =
      { s with
        rxBuf := w.bytes ++ s.rxBuf.drop w.bytes.length, rxLen := w.bytes.length
        rxLast := now } := by
    simp [ImprovShared.received]
  have hcompl : ({ s with rxLen := 0, rxLast := now } : ImprovShared).Completes w.bytes := by
    rw [ImprovShared.Completes, hreceived]
    refine ⟨by simpa using hmax, htwo, ?_⟩
    show ((w.bytes ++ s.rxBuf.drop w.bytes.length).getD 1 0).toNat + 3 ≤ w.bytes.length
    rw [List.getD_eq_getElem?_getD, List.getElem?_append_left htwo, ← List.getD_eq_getElem?_getD,
      ← hlen]
  rw [Provisioner.assembled, toHandle, happ, Option.bind_some, if_pos hcompl, Option.map_some,
    hreceived, ImprovShared.rxBytes]
  exact congrArg some List.take_left

/-! ### The client script -/

namespace ImprovProvision

/-- `bytes([n])` of the client script: an error for a number that is no byte. -/
def pyByte (n : ℕ) : Option UInt8 := if n < 256 then some (UInt8.ofNat n) else none

/-- `frame` of `improv_provision.py`. -/
def frame (cmd : UInt8) (payload : List UInt8) : Option (List UInt8) := do
  let len ← pyByte payload.length
  let body := [cmd, len] ++ payload
  some (body ++ [UInt8.ofNat ((body.map UInt8.toNat).sum % 256)])

/-- `wifi_settings` of `improv_provision.py`. -/
def wifiSettings (ssid psk : String) : Option (List UInt8) := do
  let s := ssid.toUTF8.toList
  let p := psk.toUTF8.toList
  let ssidLen ← pyByte s.length
  let pskLen ← pyByte p.length
  frame 0x01 ([ssidLen] ++ s ++ [pskLen] ++ p)

theorem pyByte_of_lt {n : ℕ} (h : n < 256) : ∃ b, pyByte n = some b ∧ b.toNat = n :=
  ⟨UInt8.ofNat n, if_pos h, UInt8.toNat_ofNat_of_lt' h⟩

/-- **What the client builds within the limits is a settings frame** of the same SSID and password.
-/
theorem wifiSettings_settingsFrame {ssid psk : String} (hpos : 1 ≤ ssid.toUTF8.toList.length)
    (hssid : ssid.toUTF8.toList.length ≤ 32) (hpsk : psk.toUTF8.toList.length ≤ 64) :
    ∃ f, wifiSettings ssid psk = some f ∧
      SettingsFrame ssid.toUTF8.toList psk.toUTF8.toList f := by
  rw [wifiSettings]
  generalize ssid.toUTF8.toList = s at *
  generalize psk.toUTF8.toList = p at *
  obtain ⟨ssidLen, hssidByte, hssidLen⟩ := pyByte_of_lt (n := s.length) (by omega)
  obtain ⟨pskLen, hpskByte, hpskLen⟩ := pyByte_of_lt (n := p.length) (by omega)
  have hpayload : ([ssidLen] ++ s ++ [pskLen] ++ p).length = s.length + p.length + 2 := by
    simp only [List.length_append, List.length_singleton]
    omega
  obtain ⟨len, hlenByte, hlen⟩ := pyByte_of_lt (n := s.length + p.length + 2) (by omega)
  have hbody : [(0x01 : UInt8), len] ++ ([ssidLen] ++ s ++ [pskLen] ++ p) =
      [1, len, ssidLen] ++ s ++ [pskLen] ++ p := by
    simp
  refine ⟨[1, len, ssidLen] ++ s ++ [pskLen] ++ p ++
    [UInt8.ofNat ((([1, len, ssidLen] ++ s ++ [pskLen] ++ p).map UInt8.toNat).sum % 256)], ?_,
    hpos, hssid, hpsk, len, ssidLen, pskLen, _, rfl, hlen, hssidLen, hpskLen, ?_⟩
  · simp only [hssidByte, hpskByte, frame, hpayload, hlenByte, Option.bind_eq_bind,
      Option.bind_some, hbody]
  · rw [List.dropLast_concat]
    exact UInt8.toNat_ofNat_of_lt' (Nat.mod_lt _ (by decide))

end ImprovProvision

/-! ### Runs -/

theorem RxInv.appendRpc (h : RxInv s) (bytes : List UInt8) : RxInv (appendRpc s bytes) := by
  rw [Provisioner.appendRpc]
  split
  · exact ⟨h.length_rxBuf, Nat.zero_le _⟩
  next hfit =>
  dsimp only
  split
  · exact ⟨List.length_replicate, Nat.zero_le _⟩
  · exact h.received (Nat.not_lt.1 hfit)

theorem RxInv.appendsTo (h : RxInv s) (happ : appendsTo s now w = some t) : RxInv t := by
  obtain ⟨-, hbuf, hlen⟩ := appendsTo_eq_some happ
  exact ⟨by rw [hbuf, h.length_rxBuf], Nat.le_trans hlen h.rxLen_le⟩

theorem RxInv.writeRpc (h : RxInv s) (now : ℕ) (w : GattWrite) : RxInv (writeRpc s now w).1 := by
  rw [writeRpc_eq]
  rcases happ : Provisioner.appendsTo s now w with - | t
  · exact h
  · exact (h.appendsTo happ).appendRpc w.bytes

/-- What holds of every write in a state: the bytes received fit the buffer, `handle_frame` reads no
other bytes, and exactly the settings frames are accepted. -/
structure RpcExact (s : ImprovShared) : Prop where
  rx : RxInv s
  reads : ∀ now w r, toHandle s now w = some r →
    handleFrameChecked r r.rxBytes = some (handleFrame r r.rxBuf r.rxLen)
  queues : ∀ now w c, (writeRpc s now w).1.provQ = s.provQ ++ [.settings c] ↔
    s.curState = .authorized ∧ s.provQ.length < provQSize ∧
      ∃ f, assembled s now w = some f ∧ SettingsFrame c.ssid c.psk f
  /-- Nothing else is queued. -/
  only : ∀ now w, (writeRpc s now w).1.provQ = s.provQ ∨
    ∃ c, (writeRpc s now w).1.provQ = s.provQ ++ [.settings c]

theorem RxInv.toHandle (h : RxInv s) (hr : toHandle s now w = some r) :
    RxInv r ∧ 2 ≤ r.rxLen := by
  obtain ⟨t, happ, hcompl, rfl⟩ := toHandle_eq_some hr
  exact ⟨(h.appendsTo happ).received hcompl.1, hcompl.2.1⟩

theorem RxInv.rpcExact (h : RxInv s) : RpcExact s := by
  have hreads : ∀ now w r, Provisioner.toHandle s now w = some r →
      handleFrameChecked r r.rxBytes = some (handleFrame r r.rxBuf r.rxLen) := by
    intro now w r hr
    obtain ⟨hinv, h2⟩ := h.toHandle hr
    exact handleFrameChecked_eq r h2 (by rw [hinv.length_rxBuf]; exact hinv.rxLen_le)
  refine ⟨h, hreads, fun now w c ↦ ?_, fun now w ↦ ?_⟩
  · have hne : s.provQ ≠ s.provQ ++ [.settings c] := fun h ↦ by
      have := congrArg List.length h
      rw [List.length_append, List.length_singleton] at this
      omega
    rw [assembled]
    rcases hr : Provisioner.toHandle s now w with - | r
    · rw [(writeRpc_of_not_toHandle hr).2]
      exact iff_of_false hne (by rintro ⟨-, -, f, hf, -⟩; exact nomatch hf)
    · obtain ⟨hwrite, hstate, hq⟩ := writeRpc_of_toHandle hr
      obtain ⟨hinv, h2⟩ := h.toHandle hr
      have hlen : r.rxBytes.length = r.rxLen :=
        List.length_take_of_le (by rw [hinv.length_rxBuf]; exact hinv.rxLen_le)
      -- `handle_frame` does the same on the received bytes alone
      have hsame : handleFrame r r.rxBuf r.rxLen = handleFrame r r.rxBytes r.rxBytes.length := by
        have hself :=
          handleFrameChecked_eq r (by rw [hlen]; exact h2) (Nat.le_refl r.rxBytes.length)
        rw [List.take_length, hreads now w r hr] at hself
        exact Option.some.inj hself
      rw [hwrite, ← hstate, ← hq, hsame, handleFrame_queues_iff]
      simp
  · rcases writeRpc_cases s now w with ⟨-, -, c, hq⟩ | ⟨-, hq⟩
    · exact Or.inr ⟨c, hq⟩
    · exact Or.inl hq

section Runs

variable {cfg : ImprovConfig} {m m' : Improv} {a : ImprovAction}

theorem dispatch_shared (cfg : ImprovConfig) (m : Improv) (msg : ProvMsg) :
    (m.dispatch cfg msg).toImprovShared = m.toImprovShared := by
  cases msg with
  | settings creds =>
    rw [Improv.dispatch]
    split <;> rfl
  | button =>
    rw [Improv.dispatch]
    split
    · rfl
    split <;> rfl

/-- Only a write fills the receive buffer. -/
theorem improvStep_rx (h : improvStep cfg m a = some m') :
    (∃ w, m'.toImprovShared = (writeRpc m.toImprovShared m.now w).1) ∨
      m'.rxBuf = m.rxBuf ∧ m'.rxLen ≤ m.rxLen := by
  cases a with
  | write w =>
    obtain rfl := Option.some.inj h
    exact Or.inl ⟨w, rfl⟩
  | disconnect =>
    obtain rfl := Option.some.inj h
    exact Or.inr ⟨rfl, Nat.zero_le _⟩
  | button =>
    obtain rfl := Option.some.inj h
    exact Or.inr ⟨rfl, Nat.le_refl _⟩
  | tick ms =>
    obtain rfl := Option.some.inj h
    exact Or.inr ⟨rfl, Nat.le_refl _⟩
  | get =>
    obtain ⟨-, msg, rest, -, rfl⟩ := improvStep_get h
    rw [dispatch_shared]
    exact Or.inr ⟨rfl, Nat.le_refl _⟩
  | timeout =>
    obtain ⟨-, rfl⟩ := improvStep_timeout h
    exact Or.inr ⟨rfl, Nat.le_refl _⟩
  | joined rc =>
    obtain ⟨creds, -, rfl | rfl⟩ := improvStep_joined h <;> exact Or.inr ⟨rfl, Nat.le_refl _⟩
  | store answer =>
    obtain ⟨creds, -, rfl | rfl⟩ := improvStep_store h <;> exact Or.inr ⟨rfl, Nat.le_refl _⟩
  | authorize =>
    obtain ⟨-, rfl⟩ := improvStep_authorize h
    exact Or.inr ⟨rfl, Nat.le_refl _⟩
  | checkAuth =>
    obtain ⟨now, -, ⟨-, rfl⟩ | ⟨-, rfl⟩ | rfl⟩ := improvStep_checkAuth h <;>
      exact Or.inr ⟨rfl, Nat.le_refl _⟩
  | deauthorize =>
    obtain ⟨now, -, rfl⟩ := improvStep_deauthorize h
    exact Or.inr ⟨rfl, Nat.le_refl _⟩
  | checkWindow =>
    obtain ⟨now, -, rfl | rfl | rfl⟩ := improvStep_checkWindow h <;>
      exact Or.inr ⟨rfl, Nat.le_refl _⟩

theorem rxInv_boot (requireAuth : Bool) : RxInv (.boot requireAuth) :=
  ⟨List.length_replicate, Nat.zero_le _⟩

theorem RxInv.improvStep (h : RxInv m.toImprovShared) (hstep : improvStep cfg m a = some m') :
    RxInv m'.toImprovShared := by
  rcases improvStep_rx hstep with ⟨w, hw⟩ | ⟨hbuf, hlen⟩
  · exact hw ▸ h.writeRpc m.now w
  · exact ⟨by rw [hbuf, h.length_rxBuf], Nat.le_trans hlen h.rxLen_le⟩

end Runs

/-- **RPC acceptance is exactly the frame grammar**, in every state of every run; and a client that
builds its frame within the limits is understood, and heard when it writes the frame at once while
nothing else is being received. -/
theorem rpcExact_throughout (cfg : ImprovConfig) (returnOnExpiry : Bool) (store : CredStore)
    (as : List ImprovAction) :
    Throughout (improvStep cfg) (fun m ↦ RpcExact m.toImprovShared)
        (.boot cfg returnOnExpiry store) as ∧
      ∀ ssid psk : String, 1 ≤ ssid.toUTF8.toList.length → ssid.toUTF8.toList.length ≤ 32 →
        psk.toUTF8.toList.length ≤ 64 →
        ∃ f creds, ImprovProvision.wifiSettings ssid psk = some f ∧
          creds.ssid = ssid.toUTF8.toList ∧ creds.psk = psk.toUTF8.toList ∧
          (∀ s : ImprovShared, RxInv s → ∀ now w, assembled s now w = some f →
            s.curState = .authorized → s.provQ.length < provQSize →
            (writeRpc s now w).1.provQ = s.provQ ++ [.settings creds]) ∧
          ∀ s : ImprovShared, RxInv s → s.rxLen = 0 → s.curState = .authorized →
            s.provQ.length < provQSize → ∀ now execute,
              (writeRpc s now ⟨f, 0, false, execute⟩).1.provQ = s.provQ ++ [.settings creds] := by
  constructor
  · have hboot : RxInv (Improv.boot cfg returnOnExpiry store).toImprovShared :=
      rxInv_boot cfg.requireAuth
    exact (throughout_of_forall (fun _ _ _ (hm : RxInv _) hstep ↦ hm.improvStep hstep) hboot as).imp
      fun _ hm ↦ hm.rpcExact
  · intro ssid psk hpos hssid hpsk
    obtain ⟨f, hf, hframe⟩ := ImprovProvision.wifiSettings_settingsFrame hpos hssid hpsk
    have hqueues : ∀ s : ImprovShared, RxInv s → ∀ now w, assembled s now w = some f →
        s.curState = .authorized → s.provQ.length < provQSize → (writeRpc s now w).1.provQ =
          s.provQ ++ [.settings ⟨_, _, Nat.lt_succ_of_le hssid, Nat.lt_succ_of_le hpsk⟩] :=
      fun s hs now w hasm hauth hroom ↦
        (hs.rpcExact.queues now w _).2 ⟨hauth, hroom, f, hasm, hframe⟩
    refine ⟨f, _, hf, rfl, rfl, hqueues, fun s hs hidle hauth hroom now execute ↦ ?_⟩
    exact hqueues s hs now _ (SettingsFrame.assembled hframe rfl rfl hidle) hauth hroom

/-- A run that accepts the settings of the open network `h`; and what a client sends for a network
with a password is queued. -/
theorem rpcExact_settingsWrite :
    Throughout (improvStep openConfig) (fun m ↦ RpcExact m.toImprovShared)
        (.boot openConfig false []) [settingsWrite, .get] ∧
      ∃ f creds, ImprovProvision.wifiSettings "home" "secret" = some f ∧
        creds.ssid = "home".toUTF8.toList ∧ creds.psk = "secret".toUTF8.toList ∧
        (∀ s : ImprovShared, RxInv s → ∀ now w, assembled s now w = some f →
          s.curState = .authorized → s.provQ.length < provQSize →
          (writeRpc s now w).1.provQ = s.provQ ++ [.settings creds]) ∧
        (writeRpc (.boot false) 0 ⟨f, 0, false, false⟩).1.provQ = [.settings creds] := by
  have h := rpcExact_throughout openConfig false [] [settingsWrite, .get]
  obtain ⟨f, creds, hf, hssid, hpsk, hqueues, hwhole⟩ :=
    h.2 "home" "secret" (by decide +kernel) (by decide +kernel) (by decide +kernel)
  exact ⟨h.1, f, creds, hf, hssid, hpsk, hqueues,
    hwhole (.boot false) (rxInv_boot false) rfl rfl (by decide) 0 false⟩

end ThinEdge.Provisioner

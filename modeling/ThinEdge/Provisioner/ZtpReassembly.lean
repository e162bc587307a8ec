import ThinEdge.Provisioner.ZtpBuffers
import ThinEdge.Provisioner.ZtpHold

/-!
# Zero-touch provisioning: reassembly

A relay's message is a sequence of fragments, each a length and a payload, and a fragment of length
zero at its end. A fragment is written at once or in pieces with consecutive offsets, and bytes past
its declared length are ignored.

`Delivers` says of a receive state that a sequence of writes brings exactly one message to its end,
and which; `RelayMessage.delivers` shows it of every message and every free receiver.
`ztpMessage_posted_iff` puts this together with the arrays: whatever is written stays inside them,
and a message reaches the main thread, as the relay wrote it, exactly if the queue has room for it.
-/

namespace ThinEdge.Provisioner

open Bytes Net Transition

/-! ### What a relay writes -/

/-- Pieces of a long write, with consecutive offsets from one on. -/
def Consecutive : ℕ → List GattWrite → Prop
  | _, [] => True
  | i, w :: ws => w.prepare = false ∧ w.offset = i ∧ Consecutive (i + w.bytes.length) ws

instance decidableConsecutive : ∀ (i : ℕ) (ws : List GattWrite), Decidable (Consecutive i ws)
  | _, [] => isTrue trivial
  | i, w :: ws =>
    have := decidableConsecutive (i + w.bytes.length) ws
    inferInstanceAs (Decidable (_ ∧ _ ∧ Consecutive _ ws))

/-- The bytes of several writes. -/
def writtenBytes (ws : List GattWrite) : List UInt8 := ws.flatMap GattWrite.bytes

/-- `[u16 BE length][payload]`. -/
def framed (payload : List UInt8) : List UInt8 :=
  putBe16 (UInt16.ofNat payload.length) ++ payload

/-- A fragment as a relay writes it: at once or in pieces, perhaps with bytes past the declared
length. -/
structure ZtpFragment where
  payload : List UInt8
  writes : List GattWrite
  consecutive : Consecutive 0 writes
  isPrefix : framed payload <+: writtenBytes writes
  length_le : (writtenBytes writes).length ≤ fragSize

/-- A message: fragments, and a terminator. -/
structure RelayMessage where
  fragments : List ZtpFragment
  terminator : ZtpFragment
  payload_ne : ∀ f ∈ fragments, f.payload ≠ []
  payload_terminator : terminator.payload = []

namespace RelayMessage

/-- The concatenation of the fragments' payloads. -/
def payload (m : RelayMessage) : List UInt8 := m.fragments.flatMap ZtpFragment.payload

/-- The writes of the fragments in front of the terminator. -/
def body (m : RelayMessage) : List GattWrite := m.fragments.flatMap ZtpFragment.writes

/-- All writes. -/
def writes (m : RelayMessage) : List GattWrite := m.body ++ m.terminator.writes

/-- The number of bytes after which the message is complete. -/
def size (m : RelayMessage) : ℕ := (writtenBytes m.body).length + 2

end RelayMessage

/-- What the main thread is to be told about a message. -/
def kindOf (cfg : ZtpConfig) (payload : List UInt8) : ZtpMsg :=
  if payload = [] then .kick else if payload.length ≤ cfg.rxBytes then .response else .overflow

/-- The receiver is free and holds nothing of a message. -/
structure RxReset (s : ZtpState) : Prop where
  rxBusy : s.rxBusy = false
  rx : s.rx = []
  rxOverflow : s.rxOverflow = false
  frag : s.frag = []

variable {cfg : ZtpConfig} {s : ZtpState} {w : GattWrite} {ws rest : List GattWrite}
  {p q d : List UInt8} {k : ℕ}

theorem writtenBytes_cons (w : GattWrite) (ws : List GattWrite) :
    writtenBytes (w :: ws) = w.bytes ++ writtenBytes ws := rfl

theorem writtenBytes_append (ws rest : List GattWrite) :
    writtenBytes (ws ++ rest) = writtenBytes ws ++ writtenBytes rest := List.flatMap_append

theorem length_framed (q : List UInt8) : (framed q).length = 2 + q.length := by
  rw [framed, putBe16, List.length_append]
  rfl

theorem ZtpFragment.length_payload_le (f : ZtpFragment) : f.payload.length ≤ 512 := by
  have hle := Nat.le_trans f.isPrefix.length_le f.length_le
  rw [length_framed, fragSize] at hle
  omega

theorem Consecutive.offset_ge {i : ℕ} (h : Consecutive i ws) :
    ∀ w ∈ ws, w.prepare = false ∧ i ≤ w.offset := by
  induction ws generalizing i with
  | nil => nofun
  | cons v ws ih =>
    obtain ⟨hprep, hoff, hws⟩ := h
    intro w hw
    rcases List.mem_cons.1 hw with rfl | hmem
    · exact ⟨hprep, Nat.le_of_eq hoff.symm⟩
    · obtain ⟨hw', hle⟩ := ih hws w hmem
      exact ⟨hw', Nat.le_trans (Nat.le_add_right _ _) hle⟩

/-! ### A fragment of which some bytes have arrived -/

/-- The declared length is the payload's, once it has arrived. -/
theorem fragLength_of_framed (hq : q.length ≤ 512) {whole : List UInt8}
    (hframed : framed q <+: whole) (hd : s.frag <+: whole) (htwo : 2 ≤ s.frag.length) :
    s.fragLength = q.length := by
  obtain ⟨junk, rfl⟩ := hframed
  obtain ⟨more, hmore⟩ := hd
  rw [framed, putBe16, List.append_assoc, List.cons_append, List.cons_append] at hmore
  rcases hfrag : s.frag with - | ⟨a, - | ⟨b, tail⟩⟩
  · rw [hfrag] at htwo
    exact absurd htwo (by decide)
  · rw [hfrag, List.length_singleton] at htwo
    exact absurd htwo (by decide)
  · rw [hfrag, List.cons_append, List.cons_append, List.cons_eq_cons, List.cons_eq_cons] at hmore
    obtain ⟨rfl, rfl, -⟩ := hmore
    have hlen : (UInt16.ofNat q.length).toNat = q.length :=
      UInt16.toNat_ofNat_of_lt (Nat.lt_of_le_of_lt hq (by decide))
    rw [ZtpState.fragLength, hfrag]
    show getBe16 _ _ = _
    rw [hlen]
    exact getBe16_putBe16 (Nat.lt_of_le_of_lt hq (by decide))

/-- The fragment is complete as soon as its declared bytes are there. -/
theorem fragComplete_iff (hq : q.length ≤ 512) {whole : List UInt8} (hframed : framed q <+: whole)
    (hd : s.frag <+: whole) : s.fragComplete ↔ 2 + q.length ≤ s.frag.length := by
  constructor
  · rintro ⟨htwo, hlen⟩
    rwa [fragLength_of_framed hq hframed hd htwo] at hlen
  · intro hlen
    have htwo : 2 ≤ s.frag.length := Nat.le_trans (Nat.le_add_right _ _) hlen
    exact ⟨htwo, by rwa [fragLength_of_framed hq hframed hd htwo]⟩

/-- Its payload is then behind the length. -/
theorem take_drop_of_framed {whole : List UInt8} (hframed : framed q <+: whole)
    (hd : d <+: whole) (hlen : 2 + q.length ≤ d.length) : (d.drop 2).take q.length = q := by
  have hle : framed q <+: d := List.prefix_of_prefix_length_le hframed hd (by rwa [length_framed])
  obtain ⟨junk, rfl⟩ := hle
  rw [framed, List.append_assoc, show (2 : ℕ) = (putBe16 (UInt16.ofNat q.length)).length from rfl,
    List.drop_left, List.take_left]

/-! ### Single writes -/

/-- A write that the receiver takes as the next piece of the fragment. -/
structure TakesPiece (s : ZtpState) (w : GattWrite) : Prop where
  rxBusy : s.rxBusy = false
  prepare : w.prepare = false
  offset : w.offset = s.frag.length
  fits : s.frag.length + w.bytes.length ≤ fragSize

theorem TakesPiece.fragStart_eq (h : TakesPiece s w) : s.fragStart w = s.frag := by
  rw [ZtpState.fragStart]
  split
  · next hzero => exact (List.length_eq_zero_iff.1 (h.offset.symm.trans hzero)).symm
  · rfl

theorem TakesPiece.appended_eq (h : TakesPiece s w) :
    s.appended w = { s with frag := s.frag ++ w.bytes } := by
  rw [ZtpState.appended, h.fragStart_eq]

/-- The next piece of a fragment that fits the array. -/
theorem TakesPiece.of_fits (hfree : s.rxBusy = false) (hprep : w.prepare = false)
    (hoff : w.offset = s.frag.length) {whole : List UInt8} (hfrag : s.frag ++ w.bytes <+: whole)
    (hfits : whole.length ≤ fragSize) : TakesPiece s w ∧ (s.appended w).frag <+: whole := by
  have hle := Nat.le_trans hfrag.length_le hfits
  rw [List.length_append] at hle
  have htakes : TakesPiece s w := ⟨hfree, hprep, hoff, hle⟩
  refine ⟨htakes, ?_⟩
  rw [htakes.appended_eq]
  exact hfrag

theorem TakesPiece.writeRequest_eq (h : TakesPiece s w) : (writeRequest cfg s w).1 =
    if (s.appended w).fragComplete then { rxFragment cfg (s.appended w) with frag := [] }
    else s.appended w :=
  writeRequest_of_taken h.prepare h.rxBusy (Or.inr h.offset) (by rw [h.fragStart_eq]; exact h.fits)

theorem TakesPiece.endsMessage_iff (h : TakesPiece s w) :
    EndsMessage s w ↔ (s.appended w).fragComplete ∧ (s.appended w).fragLength = 0 := by
  refine ⟨fun hend ↦ hend.2.2.2.2, fun hend ↦ ⟨h.prepare, h.rxBusy, Or.inr h.offset, ?_, hend⟩⟩
  rw [h.fragStart_eq]
  exact h.fits

/-- The state with a fragment's payload in the buffer, or found too large for it. -/
def ZtpState.absorb (cfg : ZtpConfig) (s : ZtpState) (q : List UInt8) : ZtpState :=
  if cfg.rxBytes < s.rx.length + q.length then { s with rxOverflow := true, frag := [] }
  else { s with rx := s.rx ++ q, frag := [] }

/-- The piece that completes a fragment adds its payload to the buffer. -/
theorem TakesPiece.writeRequest_absorb (h : TakesPiece s w) (hq : q ≠ []) (hq512 : q.length ≤ 512)
    {whole : List UInt8} (hframed : framed q <+: whole) (hpre : (s.appended w).frag <+: whole)
    (hlen : 2 + q.length ≤ (s.appended w).frag.length) :
    (writeRequest cfg s w).1 = s.absorb cfg q := by
  have hcomp := (fragComplete_iff hq512 hframed hpre).2 hlen
  have hq0 : ¬ q.length = 0 := fun h0 ↦ hq (List.length_eq_zero_iff.1 h0)
  rw [h.writeRequest_eq, if_pos hcomp, rxFragment, fragLength_of_framed hq512 hframed hpre hcomp.1,
    if_neg hq0, take_drop_of_framed hframed hpre hlen, ZtpState.absorb, h.appended_eq]
  dsimp only
  split <;> rfl

/-- A write that has nowhere to go changes nothing: the receiver has no fragment to continue. -/
theorem writeRequest_of_refused (cfg : ZtpConfig) (hfrag : s.frag = []) (hprep : w.prepare = false)
    (hoff : w.offset ≠ 0) : (writeRequest cfg s w).1 = s ∧ ¬ EndsMessage s w := by
  have hnot : w.offset ≠ s.frag.length := by
    rw [hfrag]
    exact hoff
  refine ⟨?_, fun hend ↦ hend.2.2.1.elim hoff hnot⟩
  rw [writeRequest, if_neg (ne_true_of_eq_false hprep)]
  split
  · rfl
  · rw [if_pos ⟨hoff, hnot⟩]

/-! ### Delivering a message -/

/-- From `s` on, the writes bring one message with the payload `p` to its end: it is complete with
the `k`-th byte from here, and what is written after that is refused. -/
inductive Delivers (cfg : ZtpConfig) (p : List UInt8) : ℕ → ZtpState → List GattWrite → Prop
  | ends {k : ℕ} {s : ZtpState} {w : GattWrite} {ws : List GattWrite} (hpos : 0 < k)
      (hk : k ≤ w.bytes.length) (hend : EndsMessage s w) (hmsg : s.endMsg = kindOf cfg p)
      (hrx : kindOf cfg p = .response → s.rx = p)
      (hrest : ∀ v ∈ ws, v.prepare = false ∧ v.offset ≠ 0) : Delivers cfg p k s (w :: ws)
  | more {k : ℕ} {s : ZtpState} {w : GattWrite} {ws : List GattWrite} (hk : w.bytes.length < k)
      (hfree : s.rxBusy = false) (hno : ¬ EndsMessage s w)
      (h : Delivers cfg p (k - w.bytes.length) (writeRequest cfg s w).1 ws) :
      Delivers cfg p k s (w :: ws)

theorem Delivers.pos (h : Delivers cfg p k s ws) : 0 < k := by
  cases h with
  | ends hpos => exact hpos
  | more hk => exact Nat.zero_lt_of_lt hk

theorem Delivers.free (h : Delivers cfg p k s ws) : s.rxBusy = false := by
  cases h with
  | ends _ _ hend => exact hend.2.1
  | more _ hfree => exact hfree

/-- Writes that are refused put a delivery off. -/
theorem Delivers.after_refused (h : Delivers cfg p k s rest) (hfrag : s.frag = [])
    (hws : ∀ v ∈ ws, v.prepare = false ∧ v.offset ≠ 0) :
    Delivers cfg p ((writtenBytes ws).length + k) s (ws ++ rest) := by
  induction ws with
  | nil => rwa [writtenBytes, List.flatMap_nil, List.length_nil, Nat.zero_add, List.nil_append]
  | cons w ws ih =>
    obtain ⟨hprep, hoff⟩ := hws w List.mem_cons_self
    obtain ⟨hsame, hno⟩ := writeRequest_of_refused cfg hfrag hprep hoff
    have hpos := h.pos
    have hlen : (writtenBytes (w :: ws)).length + k - w.bytes.length =
        (writtenBytes ws).length + k := by
      rw [writtenBytes_cons, List.length_append]
      omega
    refine .more ?_ h.free hno ?_
    · rw [writtenBytes_cons, List.length_append]
      omega
    · rw [hsame, hlen]
      exact ih fun v hv ↦ hws v (List.mem_cons_of_mem w hv)

/-- **The pieces of a fragment** add its payload to the buffer. The induction is on the pieces that
are left, from any number of bytes that have arrived. -/
theorem Delivers.after_pieces (hq : q ≠ []) (hq512 : q.length ≤ 512) {whole : List UInt8}
    (hframed : framed q <+: whole) (hfits : whole.length ≤ fragSize) (hfree : s.rxBusy = false)
    (hws : Consecutive s.frag.length ws) (hwhole : s.frag ++ writtenBytes ws = whole)
    (hshort : s.frag.length < 2 + q.length) (h : Delivers cfg p k (s.absorb cfg q) rest) :
    Delivers cfg p ((writtenBytes ws).length + k) s (ws ++ rest) := by
  induction ws generalizing s with
  | nil =>
    have hlen := hframed.length_le
    rw [← hwhole, writtenBytes, List.flatMap_nil, List.append_nil, length_framed] at hlen
    omega
  -- each piece either completes the fragment or leaves the same question for the next one
  | cons w ws ih =>
    obtain ⟨hprep, hoff, hrest⟩ := hws
    have hpos := h.pos
    rw [writtenBytes_cons, ← List.append_assoc] at hwhole
    have hfrag : s.frag ++ w.bytes <+: whole := ⟨writtenBytes ws, hwhole⟩
    obtain ⟨htakes, hpre⟩ := TakesPiece.of_fits hfree hprep hoff hfrag hfits
    have happ := htakes.appended_eq
    have hcomp := fragComplete_iff hq512 hframed hpre
    have hlen : (writtenBytes (w :: ws)).length + k - w.bytes.length =
        (writtenBytes ws).length + k := by
      rw [writtenBytes_cons, List.length_append]
      omega
    have hlt : w.bytes.length < (writtenBytes (w :: ws)).length + k := by
      rw [writtenBytes_cons, List.length_append]
      omega
    have hno : ¬ EndsMessage s w := fun hend ↦ by
      obtain ⟨hc, hzero⟩ := htakes.endsMessage_iff.1 hend
      rw [fragLength_of_framed hq512 hframed hpre hc.1] at hzero
      exact hq (List.length_eq_zero_iff.1 hzero)
    refine .more hlt hfree hno ?_
    rw [hlen]
    rcases Decidable.em (s.appended w).fragComplete with hc | hc
    · -- the fragment is complete: its other pieces only bring bytes past the declared length
      have hle := hcomp.1 hc
      rw [htakes.writeRequest_absorb hq hq512 hframed hpre hle]
      refine h.after_refused (by rw [ZtpState.absorb]; split <;> rfl) fun v hv ↦ ?_
      obtain ⟨hvprep, hvoff⟩ := hrest.offset_ge v hv
      refine ⟨hvprep, ?_⟩
      rw [happ, List.length_append] at hle
      omega
    · rw [htakes.writeRequest_eq, if_neg hc, happ]
      have hshort' : ¬ 2 + q.length ≤ (s.appended w).frag.length := fun hle ↦ hc (hcomp.2 hle)
      rw [happ] at hshort'
      refine ih hfree ?_ hwhole (Nat.lt_of_not_le hshort') h
      rw [List.length_append]
      exact hrest

/-- **The pieces of a terminator** end the message. -/
theorem delivers_terminator {whole : List UInt8} (hframed : framed [] <+: whole)
    (hfits : whole.length ≤ fragSize) (hfree : s.rxBusy = false)
    (hws : Consecutive s.frag.length ws) (hwhole : s.frag ++ writtenBytes ws = whole)
    (hshort : s.frag.length < 2) (hmsg : s.endMsg = kindOf cfg p)
    (hrx : kindOf cfg p = .response → s.rx = p) : Delivers cfg p (2 - s.frag.length) s ws := by
  induction ws generalizing s with
  | nil =>
    have hlen := hframed.length_le
    rw [← hwhole, writtenBytes, List.flatMap_nil, List.append_nil, length_framed] at hlen
    exact absurd hlen (Nat.not_le.2 hshort)
  | cons w ws ih =>
    obtain ⟨hprep, hoff, hrest⟩ := hws
    rw [writtenBytes_cons, ← List.append_assoc] at hwhole
    have hfrag : s.frag ++ w.bytes <+: whole := ⟨writtenBytes ws, hwhole⟩
    obtain ⟨htakes, hpre⟩ := TakesPiece.of_fits hfree hprep hoff hfrag hfits
    have happ := htakes.appended_eq
    have hlen : (s.appended w).frag.length = s.frag.length + w.bytes.length := by
      rw [happ, List.length_append]
    have hnil : ([] : List UInt8).length ≤ 512 := Nat.zero_le 512
    have hcomp := fragComplete_iff hnil hframed hpre
    rw [hlen, List.length_nil] at hcomp
    rcases Decidable.em (s.appended w).fragComplete with hc | hc
    · have hle := hcomp.1 hc
      have hzero := fragLength_of_framed hnil hframed hpre hc.1
      refine .ends (by omega) (by omega) (htakes.endsMessage_iff.2 ⟨hc, hzero⟩) hmsg hrx
        fun v hv ↦ ?_
      obtain ⟨hvprep, hvoff⟩ := hrest.offset_ge v hv
      exact ⟨hvprep, by omega⟩
    · have hlt : s.frag.length + w.bytes.length < 2 := Nat.lt_of_not_le fun hle ↦ hc (hcomp.2 hle)
      refine .more (by omega) hfree (fun hend ↦ hc (htakes.endsMessage_iff.1 hend).1) ?_
      rw [htakes.writeRequest_eq, if_neg hc, Nat.sub_sub, ← hlen]
      refine ih ?_ ?_ ?_ ?_ ?_ ?_
      all_goals rw [happ]
      · exact hfree
      · rw [List.length_append]
        exact hrest
      · exact hwhole
      · rw [List.length_append]
        exact hlt
      · exact hmsg
      · exact hrx

/-! ### Messages -/

/-- The payload `p` of complete fragments is in the buffer, or has been found too large for it. -/
structure Absorbed (cfg : ZtpConfig) (p : List UInt8) (s : ZtpState) : Prop where
  length_le : s.rx.length ≤ p.length
  fits : s.rx.length ≤ cfg.rxBytes
  rx_eq : s.rxOverflow = false → s.rx = p
  overflow : s.rxOverflow = true → cfg.rxBytes < p.length
  eq_nil : s.rx = [] → p = []

theorem RxReset.absorbed (h : RxReset s) : Absorbed cfg [] s where
  length_le := Nat.le_of_eq (congrArg List.length h.rx)
  fits := by
    rw [h.rx]
    exact Nat.zero_le _
  rx_eq := fun _ ↦ h.rx
  overflow := fun hover ↦ absurd (h.rxOverflow.symm.trans hover) Bool.false_ne_true
  eq_nil := fun _ ↦ rfl

/-- One more fragment. The buffer holds at least one of the largest, so that a message with a
fragment never looks empty. -/
theorem Absorbed.absorb (hcfg : 1024 ≤ cfg.rxBytes) (h : Absorbed cfg p s) (hq : q ≠ [])
    (hq512 : q.length ≤ 512) : Absorbed cfg (p ++ q) (s.absorb cfg q) := by
  have hle := h.length_le
  rw [ZtpState.absorb]
  split
  · next hover =>
    refine ⟨?_, h.fits, nofun, fun _ ↦ ?_, fun hnil ↦ ?_⟩
    · rw [List.length_append]
      exact Nat.le_add_right_of_le hle
    · rw [List.length_append]
      omega
    · rw [show s.rx = [] from hnil, List.length_nil] at hover
      omega
  · next hroom =>
    refine ⟨?_, ?_, fun hok ↦ congrArg (· ++ q) (h.rx_eq hok), fun hover ↦ ?_, fun hnil ↦ ?_⟩
    · rw [List.length_append, List.length_append]
      omega
    · rw [List.length_append]
      exact Nat.le_of_not_lt hroom
    · rw [List.length_append]
      exact Nat.lt_add_right _ (h.overflow hover)
    · exact absurd (List.append_eq_nil_iff.1 hnil).2 hq

/-- What the end of the message posts, and what is then in the buffer. -/
theorem Absorbed.kind (h : Absorbed cfg p s) :
    s.endMsg = kindOf cfg p ∧ (kindOf cfg p = .response → s.rx = p) := by
  have hle := h.length_le
  rw [ZtpState.endMsg, kindOf]
  rcases Decidable.em (s.rx = []) with hnil | hne
  · rw [if_pos (List.length_eq_zero_iff.2 hnil), if_pos (h.eq_nil hnil)]
    exact ⟨rfl, fun hkind ↦ absurd hkind (by decide)⟩
  · have hpos : 0 < s.rx.length := List.length_pos_iff.2 hne
    rw [if_neg (Nat.ne_of_gt hpos), if_neg (List.length_pos_iff.1 (Nat.lt_of_lt_of_le hpos hle))]
    rcases Bool.eq_false_or_eq_true s.rxOverflow with hover | hok
    · rw [if_pos hover, if_neg (Nat.not_le.2 (h.overflow hover))]
      exact ⟨rfl, fun hkind ↦ absurd hkind (by decide)⟩
    · have hfits : p.length ≤ cfg.rxBytes := h.rx_eq hok ▸ h.fits
      rw [if_neg (ne_true_of_eq_false hok), if_pos hfits]
      exact ⟨rfl, fun _ ↦ h.rx_eq hok⟩

theorem delivers_fragments (hcfg : 1024 ≤ cfg.rxBytes) (t : ZtpFragment) (ht : t.payload = [])
    {fs : List ZtpFragment} (hfs : ∀ f ∈ fs, f.payload ≠ []) (h : Absorbed cfg p s)
    (hfree : s.rxBusy = false) (hfrag : s.frag = []) :
    Delivers cfg (p ++ fs.flatMap ZtpFragment.payload)
      ((writtenBytes (fs.flatMap ZtpFragment.writes)).length + 2) s
      (fs.flatMap ZtpFragment.writes ++ t.writes) := by
  have hlen : s.frag.length = 0 := congrArg List.length hfrag
  induction fs generalizing p s with
  | nil =>
    obtain ⟨hmsg, hrx⟩ := h.kind
    have hend : Delivers cfg p (2 - s.frag.length) s t.writes :=
      delivers_terminator (ht ▸ t.isPrefix) t.length_le hfree (hlen ▸ t.consecutive)
        (by rw [hfrag, List.nil_append]) (by omega) hmsg hrx
    rw [hlen] at hend
    rwa [List.flatMap_nil, List.append_nil]
  | cons f fs ih =>
    have hne := hfs f List.mem_cons_self
    have hkeep : (s.absorb cfg f.payload).rxBusy = false ∧ (s.absorb cfg f.payload).frag = [] := by
      rw [ZtpState.absorb]
      split <;> exact ⟨hfree, rfl⟩
    have hrest := ih (fun g hg ↦ hfs g (List.mem_cons_of_mem f hg))
      (h.absorb hcfg hne f.length_payload_le) hkeep.1 hkeep.2 (congrArg List.length hkeep.2)
    rw [List.flatMap_cons, List.flatMap_cons, writtenBytes_append, List.length_append,
      List.append_assoc, ← List.append_assoc p, Nat.add_assoc]
    exact hrest.after_pieces hne f.length_payload_le f.isPrefix f.length_le hfree
      (hlen ▸ f.consecutive) (by rw [hfrag, List.nil_append]) (by omega)

/-- **Every message is delivered** by a receiver that is free and reset. -/
theorem RelayMessage.delivers (hcfg : 1024 ≤ cfg.rxBytes) (m : RelayMessage) (h : RxReset s) :
    Delivers cfg m.payload m.size s m.writes :=
  delivers_fragments hcfg m.terminator m.payload_terminator m.payload_ne h.absorbed h.rxBusy h.frag

/-- What a delivery leaves behind. -/
theorem Delivers.written_eq (h : Delivers cfg p k s ws) :
    (ZtpRx.written cfg s ws).ztpQ = (msgqPut ztpQSize s.ztpQ (kindOf cfg p)).getD s.ztpQ ∧
      (ZtpRx.written cfg s ws).rxBusy = true ∧
      (kindOf cfg p = .response → (ZtpRx.written cfg s ws).rx = p) := by
  induction h with
  | @ends k s w ws hpos hk hend hmsg hrx hrest =>
    have hdone := writeRequest_of_endsMessage cfg hend
    have hsame : ZtpRx.written cfg (writeRequest cfg s w).1 ws = (writeRequest cfg s w).1 := by
      rw [hdone]
      clear hdone
      induction ws with
      | nil => rfl
      | cons v ws ih =>
        obtain ⟨hprep, hoff⟩ := hrest v List.mem_cons_self
        rw [ZtpRx.written, List.foldl_cons, (writeRequest_of_refused cfg rfl hprep hoff).1]
        exact ih fun u hu ↦ hrest u (List.mem_cons_of_mem v hu)
    have hunfold : ZtpRx.written cfg s (w :: ws) = ZtpRx.written cfg (writeRequest cfg s w).1 ws :=
      rfl
    rw [hunfold, hsame, hdone, ← hmsg]
    exact ⟨rfl, rfl, fun hresp ↦ hrx (hmsg ▸ hresp)⟩
  | @more k s w ws hk hfree hno h ih =>
    have hunfold : ZtpRx.written cfg s (w :: ws) = ZtpRx.written cfg (writeRequest cfg s w).1 ws :=
      rfl
    have hq : (writeRequest cfg s w).1.ztpQ = s.ztpQ := by
      rcases writeRequest_cases cfg s w with ⟨hend, -⟩ | ⟨-, hsame⟩
      · exact absurd hend hno
      · exact hsame.ztpQ
    rw [hunfold, ← hq]
    exact ih

/-! ### The main result -/

/-- What the main thread is to be told about a message. -/
def RelayMessage.kind (cfg : ZtpConfig) (msg : RelayMessage) : ZtpMsg :=
  if msg.fragments.isEmpty then .kick
  else if msg.payload.length ≤ cfg.rxBytes then .response else .overflow

theorem RelayMessage.kindOf_payload (cfg : ZtpConfig) (msg : RelayMessage) :
    kindOf cfg msg.payload = msg.kind cfg := by
  have hnil : msg.payload = [] ↔ msg.fragments.isEmpty := by
    rw [payload, List.flatMap_eq_nil_iff, List.isEmpty_iff]
    refine ⟨fun h ↦ List.eq_nil_iff_forall_not_mem.2 fun f hf ↦ msg.payload_ne f hf (h f hf), ?_⟩
    intro h f hf
    exact absurd (h ▸ hf) List.not_mem_nil
  rw [kindOf, kind]
  exact if_congr hnil rfl rfl

/-- The receiver is free, and `rx_reset` was the last thing that happened to it. -/
structure ZtpRx.Reset (m : ZtpRx cfg) : Prop where
  rxBusy : m.rxBusy = false
  rxLen : m.rxBuf.used = 0
  rxOverflow : m.rxOverflow = false
  fragHave : m.frag.used = 0

/-- The main thread was posted one message, of the right kind, and a response lies in the buffer as
the relay wrote it. -/
structure PostedExactly (m : ZtpRx cfg) (msg : RelayMessage) (m' : ZtpRx cfg) : Prop where
  ztpQ : m'.ztpQ = m.ztpQ ++ [msg.kind cfg]
  rxBuf : msg.kind cfg = .response → m'.rxBuf.contents = msg.payload

/-- A message is received, and its kind is offered to the queue. -/
theorem ZtpRx.Reset.receive (hcfg : 1024 ≤ cfg.rxBytes) {m : ZtpRx cfg} (h : m.Reset)
    (msg : RelayMessage) : ∃ m', exec ZtpRx.receive m msg.writes = some m' ∧
      m'.ztpQ = (msgqPut ztpQSize m.ztpQ (msg.kind cfg)).getD m.ztpQ ∧
        (msg.kind cfg = .response → m'.rxBuf.contents = msg.payload) := by
  have hsound : m.Sound :=
    ⟨Nat.le_trans (Nat.le_of_eq h.rxLen) (Nat.zero_le _),
      Nat.le_trans (Nat.le_of_eq h.fragHave) (Nat.zero_le _)⟩
  have hshows := hsound.shows_view (.boot cfg false [])
  have hreset : RxReset (m.view (.boot cfg false [])) :=
    ⟨h.rxBusy, FillBuffer.contents_eq_nil h.rxLen, h.rxOverflow,
      FillBuffer.contents_eq_nil h.fragHave⟩
  obtain ⟨m', hm', hshows'⟩ := hshows.exec msg.writes
  obtain ⟨hq, -, hrx⟩ := (msg.delivers hcfg hreset).written_eq
  rw [msg.kindOf_payload] at hq hrx
  exact ⟨m', hm', hshows'.ztpQ.symm.trans hq, fun hresp ↦ hshows'.rx.symm.trans (hrx hresp)⟩

/-- **When a relay's message reaches the main thread.** Whatever is written stays inside the arrays;
and from a free and reset receiver on, a message is posted, as what it is, exactly if the queue has
room. -/
theorem ztpMessage_posted_iff (cfg : ZtpConfig) (hcfg : 1024 ≤ cfg.rxBytes) :
    (∀ m : ZtpRx cfg, m.Sound → ∀ ws, ∃ m', exec ZtpRx.receive m ws = some m' ∧ m'.Sound) ∧
      ∀ m : ZtpRx cfg, m.Reset → ∀ msg : RelayMessage,
        ∃ m', exec ZtpRx.receive m msg.writes = some m' ∧
          (PostedExactly m msg m' ↔ m.ztpQ.length < ztpQSize) := by
  refine ⟨fun m hm ws ↦ ?_, fun m hm msg ↦ ?_⟩
  · obtain ⟨m', hm', hshows⟩ := (hm.shows_view (.boot cfg false [])).exec ws
    exact ⟨m', hm', hshows.sound⟩
  · obtain ⟨m', hm', hq, hrx⟩ := hm.receive hcfg msg
    refine ⟨m', hm', fun hposted ↦ ?_, fun hroom ↦ ⟨?_, hrx⟩⟩
    · by_contra hfull
      rw [msgqPut_of_le (Nat.le_of_not_lt hfull), Option.getD_none, hposted.ztpQ,
        List.append_right_eq_self] at hq
      exact List.cons_ne_nil _ _ hq
    · rw [hq, msgqPut_of_lt hroom, Option.getD_some]

/-- The receive path's memory at the start. -/
def ZtpRx.boot (cfg : ZtpConfig) : ZtpRx cfg :=
  ⟨⟨.zero _, 0⟩, false, false, ⟨.zero _, 0⟩, []⟩

/-- The relay writes the message `A`. -/
def letterA : RelayMessage where
  fragments := [
    { payload := ascii "A"
      writes := [⟨[0, 1, 'A'.toUInt8], 0, false, false⟩]
      consecutive := by decide
      isPrefix := by decide
      length_le := by decide }]
  terminator :=
    { payload := []
      writes := [⟨[0, 0], 0, false, false⟩]
      consecutive := by decide
      isPrefix := by decide
      length_le := by decide }
  payload_ne := by decide
  payload_terminator := rfl

/-- The relay writes `HELLO` in two fragments: the first is cut inside its length and inside its
payload, the second carries a byte past its declared length, and the terminator is cut as well. -/
def piecesHello : RelayMessage where
  fragments := [
    { payload := ascii "HEL"
      writes := [⟨[0], 0, false, false⟩, ⟨[3, 'H'.toUInt8], 1, false, false⟩,
        ⟨ascii "EL", 3, false, false⟩]
      consecutive := by decide
      isPrefix := by decide
      length_le := by decide },
    { payload := ascii "LO"
      writes := [⟨[0, 2, 'L'.toUInt8, 'O'.toUInt8, 0xFF], 0, false, false⟩]
      consecutive := by decide
      isPrefix := by decide
      length_le := by decide }]
  terminator :=
    { payload := []
      writes := [⟨[0], 0, false, false⟩, ⟨[0], 1, false, false⟩]
      consecutive := by decide
      isPrefix := by decide
      length_le := by decide }
  payload_ne := by decide
  payload_terminator := rfl

/-- It is posted as one response. -/
theorem ztpMessage_posted_pieces :
    piecesHello.payload = ascii "HELLO" ∧ piecesHello.writes.length = 6 ∧
      ∃ m', exec ZtpRx.receive (.boot ztpDefaults) piecesHello.writes = some m' ∧
        PostedExactly (.boot ztpDefaults) piecesHello m' := by
  obtain ⟨m', hm', hiff⟩ := (ztpMessage_posted_iff ztpDefaults (by decide)).2 (.boot ztpDefaults)
    ⟨rfl, rfl, rfl, rfl⟩ piecesHello
  exact ⟨by decide, rfl, m', hm', hiff.2 (by decide)⟩

/-- While the main thread answers a kick, the button is pressed four times. -/
def buttonsRun : List ZtpAction :=
  [terminator, .get, .reset, .clear, .button, .button, .button, .button]

/-- The memory after that run. -/
def buttonsRx : ZtpRx ztpDefaults :=
  { ZtpRx.boot ztpDefaults with ztpQ := [.button, .button, .button, .button] }

/-- The message that comes then is lost. -/
theorem not_posted_buttonsRun :
    ¬ ∀ (cfg : ZtpConfig) (returnOnExpiry : Bool) (store : CredStore) (as : List ZtpAction)
      (s : ZtpState), 1024 ≤ cfg.rxBytes →
      exec (ztpStep cfg) (.boot cfg returnOnExpiry store) as = some s →
      ∀ m : ZtpRx cfg, m.Shows s → m.Reset → ∀ msg : RelayMessage,
        ∃ m', exec ZtpRx.receive m msg.writes = some m' ∧ PostedExactly m msg m' := by
  intro h
  have hreset : buttonsRx.Reset := ⟨rfl, rfl, rfl, rfl⟩
  have hrun : exec (ztpStep ztpDefaults) (.boot ztpDefaults false []) buttonsRun =
      some (buttonsRx.view { ZtpState.boot ztpDefaults false [] with
        pc := .answering .kick
        curStatus := .relaying }) := by decide
  have hsound : buttonsRx.Sound := ⟨Nat.zero_le _, Nat.zero_le _⟩
  obtain ⟨m', hm', hposted⟩ := h ztpDefaults false [] buttonsRun _ (by decide) hrun buttonsRx
    (hsound.shows_view _) hreset letterA
  obtain ⟨m'', hm'', hq, -⟩ := hreset.receive (by decide) letterA
  obtain rfl := Option.some.inj (hm'.symm.trans hm'')
  have hlost : m'.ztpQ.length = 4 := congrArg List.length hq
  rw [hposted.ztpQ, List.length_append] at hlost
  exact absurd hlost (by decide)

end ThinEdge.Provisioner

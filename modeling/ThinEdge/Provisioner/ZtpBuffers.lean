import ThinEdge.Lib.FillBuffer
import ThinEdge.Provisioner.ZtpReceive

/-!
# Zero-touch provisioning: the receive buffers in memory

`write_request` and `rx_fragment` as they work on the arrays `rx_buf` and `frag`, with every index
that they read and write: `none` is an access outside an array. The arrays are never cleared, so
what is behind `rx_len` and `frag_have` is left over from other messages.

`Shows` connects a memory with the state of `writeRequest`, which knows only the bytes in use.
`Shows.writeRequest` is the simulation: whatever is written, no access leaves its array, and the
memory afterwards shows what `writeRequest` says.
-/

namespace ThinEdge.Provisioner

open Bytes Transition

variable {cfg : ZtpConfig}

/-- The receive path's static variables, and the queue it posts to. -/
structure ZtpRx (cfg : ZtpConfig) where
  /-- `rx_buf` and `rx_len`. -/
  rxBuf : FillBuffer cfg.rxBytes
  rxOverflow : Bool
  rxBusy : Bool
  /-- `frag` and `frag_have`. -/
  frag : FillBuffer fragSize
  ztpQ : List ZtpMsg
  deriving DecidableEq, Repr

namespace ZtpRx

/-- `post`. -/
def post (m : ZtpRx cfg) (msg : ZtpMsg) : ZtpRx cfg :=
  { m with ztpQ := (msgqPut ztpQSize m.ztpQ msg).getD m.ztpQ }

/-- `sys_get_be16(frag)`. -/
def fragLength (m : ZtpRx cfg) : Option ℕ :=
  (m.frag.read 0 2).map fun b ↦ getBe16 (b.getD 0 0) (b.getD 1 0)

/-- What the end of a message posts. -/
def endMsg (m : ZtpRx cfg) : ZtpMsg :=
  if m.rxBuf.used = 0 then .kick else if m.rxOverflow then .overflow else .response

/-- `rx_fragment`. -/
def rxFragment (m : ZtpRx cfg) : Option (ZtpRx cfg) := do
  let n ← m.fragLength
  if n = 0 then return { m with rxBusy := true }.post m.endMsg
  else if cfg.rxBytes < m.rxBuf.used + n then return { m with rxOverflow := true }
  else
    let bytes ← m.frag.read 2 n
    let rxBuf ← m.rxBuf.put bytes
    return { m with rxBuf }

/-- The end of `write_request`: a complete fragment is handled. -/
def handleComplete (m : ZtpRx cfg) : Option (ZtpRx cfg) := do
  if m.frag.used < 2 then return m
  else
    let n ← m.fragLength
    if m.frag.used < 2 + n then return m
    else
      let m ← m.rxFragment
      return { m with frag := m.frag.clear }

/-- The fragment that a write goes to: a new one at offset zero. -/
def openFrag (m : ZtpRx cfg) (w : GattWrite) : FillBuffer fragSize :=
  if w.offset = 0 then m.frag.clear else m.frag

/-- `write_request`. -/
def writeRequest (m : ZtpRx cfg) (w : GattWrite) : Option (ZtpRx cfg × WriteResult) :=
  if w.prepare then some (m, .count 0)
  else if m.rxBusy then some (m, .count w.bytes.length)
  else if w.offset ≠ 0 ∧ w.offset ≠ m.frag.used then some (m, .invalidOffset)
  else if fragSize < (m.openFrag w).used + w.bytes.length then
    some ({ m with frag := m.openFrag w }, .invalidAttributeLen)
  else do
    let frag ← (m.openFrag w).put w.bytes
    let m ← { m with frag }.handleComplete
    return (m, .count w.bytes.length)

/-- The memory after a write. -/
def receive (m : ZtpRx cfg) (w : GattWrite) : Option (ZtpRx cfg) :=
  (m.writeRequest w).map Prod.fst

/-- The lengths are inside their arrays. -/
structure Sound (m : ZtpRx cfg) : Prop where
  rxBuf : m.rxBuf.Sound
  frag : m.frag.Sound

/-- The memory holds what a state says. -/
structure Shows (m : ZtpRx cfg) (s : ZtpState) : Prop where
  sound : m.Sound
  rx : s.rx = m.rxBuf.contents
  rxOverflow : s.rxOverflow = m.rxOverflow
  rxBusy : s.rxBusy = m.rxBusy
  frag : s.frag = m.frag.contents
  ztpQ : s.ztpQ = m.ztpQ

variable {m : ZtpRx cfg} {s : ZtpState}

/-! ### The simulation -/

theorem Shows.length_rx (h : m.Shows s) : s.rx.length = m.rxBuf.used := by
  rw [h.rx, FillBuffer.length_contents h.sound.rxBuf]

theorem Shows.length_frag (h : m.Shows s) : s.frag.length = m.frag.used := by
  rw [h.frag, FillBuffer.length_contents h.sound.frag]

theorem Shows.post (h : m.Shows s) (msg : ZtpMsg) : (m.post msg).Shows (s.post msg) :=
  ⟨⟨h.sound.rxBuf, h.sound.frag⟩, h.rx, h.rxOverflow, h.rxBusy, h.frag,
    by rw [ZtpState.post, ZtpRx.post, h.ztpQ]⟩

theorem Shows.endMsg_eq (h : m.Shows s) : s.endMsg = m.endMsg := by
  rw [ZtpState.endMsg, ZtpRx.endMsg, h.length_rx, h.rxOverflow]

/-- The declared length is read from the fragment's own bytes. -/
theorem Shows.fragLength_eq (h : m.Shows s) (htwo : 2 ≤ m.frag.used) :
    m.fragLength = some s.fragLength := by
  rw [ZtpRx.fragLength, FillBuffer.read_eq h.sound.frag (by omega), Option.map_some, ← h.frag,
    List.drop_zero, ZtpState.fragLength]
  obtain ⟨a, b, rest, hfrag⟩ : ∃ a b rest, s.frag = a :: b :: rest := by
    have hlen := h.length_frag
    rcases hfrag : s.frag with - | ⟨a, - | ⟨b, rest⟩⟩
    · rw [hfrag] at hlen
      exact absurd hlen (by rw [List.length_nil]; omega)
    · rw [hfrag] at hlen
      exact absurd hlen (by rw [List.length_singleton]; omega)
    · exact ⟨a, b, rest, rfl⟩
  rw [hfrag]
  rfl

/-- A complete fragment is handled inside the arrays. -/
theorem Shows.rxFragment (h : m.Shows s) (hcomp : s.fragComplete) :
    ∃ m', m.rxFragment = some m' ∧ m'.Shows (Provisioner.rxFragment cfg s) := by
  have htwo : 2 ≤ m.frag.used := h.length_frag ▸ hcomp.1
  have hn : 2 + s.fragLength ≤ m.frag.used := h.length_frag ▸ hcomp.2
  rw [ZtpRx.rxFragment, h.fragLength_eq htwo, Provisioner.rxFragment]
  dsimp only [Option.bind_eq_bind, Option.bind_some]
  split
  · refine ⟨_, rfl, ?_⟩
    rw [h.endMsg_eq]
    have hbusy : ({ m with rxBusy := true } : ZtpRx cfg).Shows { s with rxBusy := true } :=
      ⟨⟨h.sound.rxBuf, h.sound.frag⟩, h.rx, h.rxOverflow, rfl, h.frag, h.ztpQ⟩
    exact hbusy.post m.endMsg
  · rw [h.length_rx]
    split
    · exact ⟨_, rfl, ⟨h.sound.rxBuf, h.sound.frag⟩, h.rx, rfl, h.rxBusy, h.frag, h.ztpQ⟩
    · next hfits =>
      have hread := FillBuffer.read_eq h.sound.frag hn
      have hlen : ((m.frag.contents.drop 2).take s.fragLength).length = s.fragLength := by
        rw [List.length_take, List.length_drop, FillBuffer.length_contents h.sound.frag]
        omega
      have hroom : m.rxBuf.used + ((m.frag.contents.drop 2).take s.fragLength).length ≤
          cfg.rxBytes := by
        rw [hlen]
        omega
      obtain ⟨rxBuf, hput, hused, hcontents⟩ := FillBuffer.put_eq hroom
      refine ⟨{ m with rxBuf }, ?_, ⟨?_, h.sound.frag⟩, ?_, h.rxOverflow, h.rxBusy, h.frag, h.ztpQ⟩
      · rw [hread, Option.bind_some, hput]
        rfl
      · rw [FillBuffer.Sound, hused]
        exact hroom
      · dsimp only
        rw [hcontents, h.rx, h.frag]

theorem Shows.handleComplete (h : m.Shows s) :
    ∃ m', m.handleComplete = some m' ∧
      m'.Shows (if s.fragComplete then { Provisioner.rxFragment cfg s with frag := [] }
        else s) := by
  rw [ZtpRx.handleComplete]
  split
  · next hshort =>
    have hno : ¬ s.fragComplete := fun hcomp ↦ by
      have := h.length_frag ▸ hcomp.1
      omega
    rw [if_neg hno]
    exact ⟨m, rfl, h⟩
  · next hlong =>
    rw [h.fragLength_eq (by omega)]
    dsimp only [Option.bind_eq_bind, Option.bind_some]
    split
    · next hshort =>
      have hno : ¬ s.fragComplete := fun hcomp ↦ by
        have := h.length_frag ▸ hcomp.2
        omega
      rw [if_neg hno]
      exact ⟨m, rfl, h⟩
    · next hfull =>
      have hcomp : s.fragComplete := ⟨by rw [h.length_frag]; omega, by rw [h.length_frag]; omega⟩
      obtain ⟨m', hm', hshows⟩ := h.rxFragment hcomp
      rw [if_pos hcomp, hm']
      exact ⟨_, rfl, ⟨hshows.sound.rxBuf, FillBuffer.sound_clear _⟩, hshows.rx, hshows.rxOverflow,
        hshows.rxBusy, (FillBuffer.contents_clear _).symm, hshows.ztpQ⟩

/-- The fragment that a write goes to. -/
theorem Shows.openFrag (h : m.Shows s) (w : GattWrite) :
    ({ m with frag := m.openFrag w } : ZtpRx cfg).Shows { s with frag := s.fragStart w } := by
  rw [ZtpRx.openFrag, ZtpState.fragStart]
  split
  · exact ⟨⟨h.sound.rxBuf, FillBuffer.sound_clear _⟩, h.rx, h.rxOverflow, h.rxBusy,
      (FillBuffer.contents_clear _).symm, h.ztpQ⟩
  · exact h

/-- **Every write stays inside the arrays**, and leaves them as `writeRequest` says. -/
theorem Shows.writeRequest (h : m.Shows s) (w : GattWrite) :
    ∃ m', m.writeRequest w = some (m', (Provisioner.writeRequest cfg s w).2) ∧
      m'.Shows (Provisioner.writeRequest cfg s w).1 := by
  rw [ZtpRx.writeRequest, Provisioner.writeRequest, h.rxBusy, h.length_frag]
  split
  · exact ⟨m, rfl, h⟩
  split
  · exact ⟨m, rfl, h⟩
  split
  · exact ⟨m, rfl, h⟩
  have hopen := h.openFrag w
  have hstart : (s.fragStart w).length = (m.openFrag w).used := hopen.length_frag
  rw [hstart]
  split
  · rw [h.rxBusy] at hopen
    exact ⟨_, rfl, hopen⟩
  next hfits =>
  obtain ⟨frag, hput, hused, hcontents⟩ := FillBuffer.put_eq (Nat.le_of_not_lt hfits)
  have happended : ({ m with frag } : ZtpRx cfg).Shows (s.appended w) := by
    refine ⟨⟨h.sound.rxBuf, ?_⟩, h.rx, h.rxOverflow, h.rxBusy, ?_, h.ztpQ⟩
    · rw [FillBuffer.Sound, hused]
      exact Nat.le_of_not_lt hfits
    · rw [hcontents, ← show s.fragStart w = (m.openFrag w).contents from hopen.frag]
      rfl
  obtain ⟨m', hm', hshows⟩ := happended.handleComplete
  refine ⟨m', ?_, hshows⟩
  rw [hput]
  dsimp only [Option.bind_eq_bind, Option.bind_some]
  rw [hm']
  rfl

/-! ### Sequences of writes -/

/-- The state after a sequence of writes. -/
def written (cfg : ZtpConfig) (s : ZtpState) (ws : List GattWrite) : ZtpState :=
  ws.foldl (fun s w ↦ (Provisioner.writeRequest cfg s w).1) s

theorem Shows.exec (h : m.Shows s) (ws : List GattWrite) :
    ∃ m', exec receive m ws = some m' ∧ m'.Shows (written cfg s ws) := by
  induction ws generalizing m s with
  | nil => exact ⟨m, rfl, h⟩
  | cons w ws ih =>
    obtain ⟨m₁, hw, hshows⟩ := h.writeRequest w
    obtain ⟨m', hm', hshows'⟩ := ih hshows
    refine ⟨m', ?_, hshows'⟩
    rw [exec_cons, receive, hw, Option.map_some, Option.bind_some, hm']

/-- What a memory holds, with the rest of the state from elsewhere. -/
def view (m : ZtpRx cfg) (s : ZtpState) : ZtpState :=
  { s with
    rx := m.rxBuf.contents
    rxOverflow := m.rxOverflow
    rxBusy := m.rxBusy
    frag := m.frag.contents
    ztpQ := m.ztpQ }

theorem Sound.shows_view (h : m.Sound) (s : ZtpState) : m.Shows (m.view s) :=
  ⟨h, rfl, rfl, rfl, rfl, rfl⟩

end ZtpRx

end ThinEdge.Provisioner

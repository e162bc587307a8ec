import ThinEdge.Modbus.Server

/-!
# Which frames the Modbus server submits

A client sends a list of MBAP frames as one stream and closes its connection after `c` bytes. The
frames completely contained in those bytes are `completeFrames`, and what follows the last of them
is the `truncatedTail`, a proper beginning of the next frame.

`serve_once` takes every positive byte count of a receive for a complete one, so a tail can be
submitted as if it were a frame: with data bytes of an earlier frame when it is longer than a
header, and with header bytes from the stack when it is shorter than one. `TailOk` says which tails
are not; `serveOnce_frames_iff` shows that it is the exact condition. Both speak of runs in which no
late callback writes `tmp_adu` while an ADU is being received (`Undisturbed`); what such a callback
does to the replies is the subject of `ThinEdge.Modbus.Pairing`.
-/

namespace ThinEdge.Modbus

open Bytes Transition

variable {raw : ModbusRaw}

/-! ### Streams and their cuts -/

/-- The frames' bytes, one after the other. -/
def wire (frames : List MbapFrame) : List UInt8 := frames.flatMap MbapFrame.bytes

/-- The frames that end within the first `c` bytes. -/
def completeFrames : List MbapFrame → ℕ → List MbapFrame
  | [], _ => []
  | f :: fs, c =>
    if f.bytes.length ≤ c then f :: completeFrames fs (c - f.bytes.length) else []

/-- The bytes among the first `c` that belong to no complete frame. -/
def truncatedTail : List MbapFrame → ℕ → List UInt8
  | [], _ => []
  | f :: fs, c =>
    if f.bytes.length ≤ c then truncatedTail fs (c - f.bytes.length) else f.bytes.take c

/-- The frame fits the ADU's data array. -/
def MbapFrame.Fits (raw : ModbusRaw) (f : MbapFrame) : Prop := f.data.length ≤ raw.dataSize

instance (f : MbapFrame) : Decidable (f.Fits raw) := inferInstanceAs (Decidable (_ ≤ _))

@[simp] theorem wire_nil : wire [] = [] := rfl

@[simp] theorem wire_cons (f : MbapFrame) (fs : List MbapFrame) :
    wire (f :: fs) = f.header ++ (f.data ++ wire fs) := by
  simp [wire, MbapFrame.bytes]

@[simp] theorem take_header_append (f : MbapFrame) (bs : List UInt8) :
    (f.header ++ bs).take mbapAndFcLength = f.header := by
  rw [List.take_append_of_le_length (by simp), List.take_of_length_le (by simp)]

@[simp] theorem drop_header_append (f : MbapFrame) (bs : List UInt8) :
    (f.header ++ bs).drop mbapAndFcLength = bs := by
  rw [List.drop_append_of_le_length (by simp), List.drop_of_length_le (by simp), List.nil_append]

theorem take_wire (frames : List MbapFrame) (c : ℕ) :
    (wire frames).take c = wire (completeFrames frames c) ++ truncatedTail frames c := by
  induction frames generalizing c with
  | nil => simp [completeFrames, truncatedTail]
  | cons f fs ih =>
    have hsplit : wire (f :: fs) = f.bytes ++ wire fs := by simp [MbapFrame.bytes]
    by_cases h : f.bytes.length ≤ c
    · have htake : (f.bytes ++ wire fs).take c =
          f.bytes ++ (wire fs).take (c - f.bytes.length) := by
        rw [List.take_append, List.take_of_length_le h]
      rw [hsplit, htake, ih, completeFrames, truncatedTail, if_pos h, if_pos h, wire_cons]
      simp [MbapFrame.bytes]
    · rw [hsplit, completeFrames, truncatedTail, if_neg h, if_neg h,
        List.take_append_of_le_length (by omega), wire_nil, List.nil_append]

theorem subset_completeFrames (frames : List MbapFrame) (c : ℕ) :
    completeFrames frames c ⊆ frames := by
  induction frames generalizing c with
  | nil => simp [completeFrames]
  | cons f fs ih =>
    rw [completeFrames]
    split
    · exact List.cons_subset_cons f (ih _)
    · exact List.nil_subset _

/-- The tail is a proper beginning of one of the frames, or empty. -/
theorem truncatedTail_eq (frames : List MbapFrame) (c : ℕ) :
    truncatedTail frames c = [] ∨
      ∃ f ∈ frames, ∃ n < f.bytes.length, truncatedTail frames c = f.bytes.take n := by
  induction frames generalizing c with
  | nil => exact Or.inl rfl
  | cons f fs ih =>
    rw [truncatedTail]
    split
    · rcases ih (c - f.bytes.length) with h | ⟨g, hg, h⟩
      · exact Or.inl h
      · exact Or.inr ⟨g, List.mem_cons_of_mem f hg, h⟩
    · next h => exact Or.inr ⟨f, List.mem_cons_self, c, by omega, rfl⟩

/-- A tail of at least a header's length begins with the header of a frame that has data. -/
theorem take_truncatedTail {frames : List MbapFrame} {c : ℕ}
    (hlen : mbapAndFcLength ≤ (truncatedTail frames c).length) :
    ∃ f ∈ frames, f.data ≠ [] ∧ (truncatedTail frames c).take mbapAndFcLength = f.header := by
  rcases truncatedTail_eq frames c with h | ⟨f, hf, n, hn, h⟩
  · simp [h, mbapAndFcLength] at hlen
  · rw [h, List.length_take] at hlen
    refine ⟨f, hf, ?_, ?_⟩
    · intro hnil
      simp only [length_bytes, hnil, List.length_nil] at hn
      omega
    · rw [h, List.take_take, Nat.min_eq_left (by omega), MbapFrame.bytes,
        List.take_append_of_le_length (by simp), List.take_of_length_le (by simp)]

/-! ### The property and its condition -/

/-- The frames submitted since the state `s₀`. -/
def Server.submittedSince (s₀ s : Server) : List MbapFrame :=
  (s.submitted.drop s₀.submitted.length).map ModbusAdu.frame

/-- What has been submitted since `s₀` is some of `frames` in order, and all of them once the client
has closed the connection. -/
def SubmitsFrames (frames : List MbapFrame) (s₀ s : Server) : Prop :=
  s₀.submittedSince s <+: frames ∧ (s.pc = .noClient true → s₀.submittedSince s = frames)

instance (frames : List MbapFrame) (s₀ s : Server) : Decidable (SubmitsFrames frames s₀ s) :=
  inferInstanceAs (Decidable (_ ∧ _))

/-- Steps of one connection: no other client connects. -/
def SameConnection (_ : Server) : Action → Prop
  | .accept _ => False
  | _ => True

instance (s : Server) : (a : Action) → Decidable (SameConnection s a)
  | .accept _ => isFalse not_false
  | .drop | .recvHeader _ | .recvData | .recvError | .submitRx _ | .semTake | .semTimeout
  | .setFailure | .sendHeader _ | .sendData _ | .rawTxFill .. | .rawTxGive => isTrue trivial

/-- Steps of one connection in which no callback writes `tmp_adu` between the header of an ADU and
its submission. -/
def Undisturbed (s : Server) : Action → Prop
  | .accept _ => False
  | .rawTxFill _ _ => s.pc ≠ .body ∧ s.pc ≠ .submit
  | _ => True

instance (s : Server) : (a : Action) → Decidable (Undisturbed s a)
  | .accept _ => isFalse not_false
  | .rawTxFill .. => inferInstanceAs (Decidable (_ ∧ _))
  | .drop | .recvHeader _ | .recvData | .recvError | .submitRx _ | .semTake | .semTimeout
  | .setFailure | .sendHeader _ | .sendData _ | .rawTxGive => isTrue trivial

/-- The tails that are not submitted: none at all, a header and nothing more, and the part of a
header that, whatever the stack holds behind it, announces data. -/
def TailOk (raw : ModbusRaw) (tail : List UInt8) : Prop :=
  tail = [] ∨ tail.length = mbapAndFcLength ∨
    tail.length < mbapAndFcLength ∧
      ∀ mem : List UInt8, mem.length = mbapAndFcLength →
        0 < (raw.getHeader (overwrite mem tail)).length

/-! ### The invariant -/

/-- Where the listener stands in the stream, when `rest` are the complete frames it has not
submitted yet. -/
def Receiving (rest : List MbapFrame) (tail : List UInt8) (s : Server) : Prop :=
  match s.pc with
  | .noClient byPeer => byPeer = true → rest = []
  | .body =>
    (∃ f fs, rest = f :: fs ∧ s.tmpAdu.toMbapHeader = f.mbap ∧ f.data ≠ [] ∧
      s.stream = f.data ++ (wire fs ++ tail)) ∨ rest = [] ∧ s.stream = []
  | .submit => ∃ f fs, rest = f :: fs ∧ s.tmpAdu.frame = f ∧ s.stream = wire fs ++ tail
  | _ => s.stream = wire rest ++ tail

/-- Submitted and remaining frames together are the complete ones. -/
def FramingInv (frames : List MbapFrame) (tail : List UInt8) (s₀ s : Server) : Prop :=
  ∃ new rest, s.submitted = s₀.submitted ++ new ∧ new.map ModbusAdu.frame ++ rest = frames ∧
    Receiving rest tail s

variable {frames : List MbapFrame} {tail : List UInt8} {s₀ s t : Server} {a : Action}

theorem FramingInv.submitsFrames (h : FramingInv frames tail s₀ s) : SubmitsFrames frames s₀ s := by
  obtain ⟨new, rest, hsub, rfl, hrec⟩ := h
  have hsince : s₀.submittedSince s = new.map ModbusAdu.frame := by
    rw [Server.submittedSince, hsub, List.drop_left]
  refine ⟨hsince ▸ List.prefix_append _ _, fun hpc ↦ ?_⟩
  rw [Receiving, hpc] at hrec
  rw [hsince, hrec rfl, List.append_nil]

/-- The steps between a submission and the next header leave the stream and the submissions. -/
theorem receiving_of_answering {rest : List MbapFrame}
    (ha : a = .semTake ∨ a = .semTimeout ∨ a = .setFailure ∨ (∃ ok, a = .sendHeader ok) ∨
      ∃ ok, a = .sendData ok)
    (hrec : Receiving rest tail s) (h : step raw s a = some t) :
    t.submitted = s.submitted ∧ Receiving rest tail t := by
  rw [Receiving] at hrec ⊢
  rcases ha with rfl | rfl | rfl | ⟨ok, rfl⟩ | ⟨ok, rfl⟩ <;> simp only [step] at h <;>
    split at h <;> simp only [Option.ite_none_right_eq_some, Option.ite_none_left_eq_some,
      Option.some.injEq, reduceCtorEq] at h
  · next k hpc =>
    obtain ⟨-, rfl⟩ := h
    rw [hpc] at hrec
    exact ⟨rfl, hrec⟩
  · next k hpc =>
    obtain ⟨-, rfl⟩ := h
    rw [hpc] at hrec
    exact ⟨rfl, hrec⟩
  · next k hpc =>
    subst h
    rw [hpc] at hrec
    exact ⟨rfl, hrec⟩
  · next k hpc =>
    subst h
    rw [hpc] at hrec
    cases ok
    · exact ⟨rfl, fun hpeer ↦ nomatch hpeer⟩
    · exact ⟨rfl, hrec⟩
  · next k header hpc =>
    subst h
    rw [hpc] at hrec
    refine ⟨rfl, ?_⟩
    cases ok || s.tmpAdu.length == 0
    · exact fun hpeer ↦ nomatch hpeer
    · exact hrec

/-- A callback that does not fall into the reception of an ADU leaves the position in the stream. -/
theorem receiving_of_callback {rest : List MbapFrame} (hpc : t.pc = s.pc)
    (hstream : t.stream = s.stream) (hne : s.pc ≠ .body ∧ s.pc ≠ .submit)
    (hrec : Receiving rest tail s) : Receiving rest tail t := by
  rw [Receiving] at hrec ⊢
  rw [hpc, hstream]
  rcases hs : s.pc with _ | _ | _ | _ | _ | _ | _ | _ <;> rw [hs] at hrec hne
  case body => exact absurd rfl hne.1
  case submit => exact absurd rfl hne.2
  all_goals exact hrec

/-- What a receive of the header does. -/
theorem step_recvHeader {mem : List UInt8} (h : step raw s (.recvHeader mem) = some t) :
    s.pc = .top ∧ mem.length = mbapAndFcLength ∧
      (s.stream = [] ∧ t = { s with pc := .noClient true } ∨
        s.stream ≠ [] ∧ ∃ header,
          header = raw.getHeader (overwrite mem (s.stream.take mbapAndFcLength)) ∧
          t = { s with
            pc := if 0 < header.length then .body else .submit
            tmpAdu := { s.tmpAdu with toMbapHeader := header }
            stream := s.stream.drop mbapAndFcLength }) := by
  simp only [step, Option.ite_none_right_eq_some] at h
  obtain ⟨⟨hpc, hmem⟩, h⟩ := h
  refine ⟨hpc, hmem, ?_⟩
  split at h <;> simp only [Option.some.injEq] at h
  · next hnil =>
    rw [List.take_eq_nil_iff] at hnil
    exact Or.inl ⟨hnil.resolve_left (by decide), h.symm⟩
  · next hnil =>
    rw [List.take_eq_nil_iff, not_or] at hnil
    exact Or.inr ⟨hnil.2, _, rfl, h.symm⟩

/-- What a receive of the data does. -/
theorem step_recvData (h : step raw s .recvData = some t) :
    s.pc = .body ∧
      (s.stream.take s.tmpAdu.length = [] ∧ t = { s with pc := .noClient true } ∨
        s.stream.take s.tmpAdu.length ≠ [] ∧ t = { s with
          pc := .submit
          tmpAdu := { s.tmpAdu with
            data := overwrite s.tmpAdu.data (s.stream.take s.tmpAdu.length) }
          stream := s.stream.drop s.tmpAdu.length }) := by
  simp only [step, Option.ite_none_right_eq_some] at h
  obtain ⟨hpc, h⟩ := h
  refine ⟨hpc, ?_⟩
  split at h <;> simp only [Option.some.injEq] at h
  · next hnil => exact Or.inl ⟨hnil, h.symm⟩
  · next hnil => exact Or.inr ⟨hnil, h.symm⟩

/-- A whole header overwrites the stack memory it is received into. -/
theorem overwrite_header {mem : List UInt8} (hmem : mem.length = mbapAndFcLength)
    (f : MbapFrame) : overwrite mem f.header = f.header := by
  simp [overwrite, hmem]

/-- The header of the next complete frame is decoded to that frame's fields. -/
theorem receiving_recvHeader_frame {f : MbapFrame} {fs : List MbapFrame} {mem : List UInt8}
    (hfits : f.Fits raw) (hrec : Receiving (f :: fs) tail s)
    (h : step raw s (.recvHeader mem) = some t) :
    t.submitted = s.submitted ∧ Receiving (f :: fs) tail t := by
  obtain ⟨hpc, hmem, hcase⟩ := step_recvHeader h
  have hstream : s.stream = f.header ++ (f.data ++ (wire fs ++ tail)) := by
    rw [Receiving] at hrec
    rw [hpc] at hrec
    simpa using hrec
  have htake : s.stream.take mbapAndFcLength = f.header := by rw [hstream, take_header_append]
  have hdrop : s.stream.drop mbapAndFcLength = f.data ++ (wire fs ++ tail) := by
    rw [hstream, drop_header_append]
  rcases hcase with ⟨hnil, -⟩ | ⟨-, header, rfl, rfl⟩
  · rw [hnil, List.take_nil] at htake
    have := length_header f
    simp [← htake, mbapAndFcLength] at this
  · rw [htake, overwrite_header hmem, raw.getHeader_header f hfits, hdrop]
    refine ⟨rfl, ?_⟩
    rw [Receiving]
    by_cases hlen : 0 < f.mbap.length
    · simp only [hlen, if_true]
      exact Or.inl ⟨f, fs, rfl, rfl, List.ne_nil_of_length_pos hlen, rfl⟩
    · have hdata : f.data = [] := List.length_eq_zero_iff.1 (Nat.eq_zero_of_not_pos hlen)
      simp only [hlen, if_false]
      refine ⟨f, fs, rfl, ModbusAdu.frame_eq rfl ?_, by simp [hdata]⟩
      simp [ModbusAdu.payload, MbapFrame.mbap, hdata]

/-- A tail that is none, or announces data, is received as the end of the connection. -/
theorem receiving_recvHeader_tail {mem : List UInt8} (htail : TailOk raw tail)
    (hhead : tail.length = mbapAndFcLength → ∃ f : MbapFrame, f.Fits raw ∧ f.data ≠ [] ∧
      tail = f.header)
    (hrec : Receiving [] tail s) (h : step raw s (.recvHeader mem) = some t) :
    t.submitted = s.submitted ∧ Receiving [] tail t := by
  obtain ⟨hpc, hmem, hcase⟩ := step_recvHeader h
  have hstream : s.stream = tail := by
    rw [Receiving] at hrec
    rw [hpc] at hrec
    exact hrec
  rcases hcase with ⟨-, rfl⟩ | ⟨hne, header, rfl, rfl⟩
  · exact ⟨rfl, fun _ ↦ rfl⟩
  · rw [hstream] at hne ⊢
    have hle : tail.length ≤ mbapAndFcLength := by
      rcases htail with rfl | h | ⟨h, -⟩
      · exact Nat.zero_le _
      · exact Nat.le_of_eq h
      · exact Nat.le_of_lt h
    have hpos : 0 < (raw.getHeader (overwrite mem tail)).length := by
      rcases htail with rfl | h | ⟨-, h⟩
      · exact absurd rfl hne
      · obtain ⟨f, hf, hdata, rfl⟩ := hhead h
        rw [overwrite_header hmem, raw.getHeader_header f hf]
        exact List.length_pos_of_ne_nil hdata
      · exact h mem hmem
    rw [List.take_of_length_le hle, List.drop_of_length_le hle]
    refine ⟨rfl, ?_⟩
    simp only [Receiving, hpos, if_true]
    exact Or.inr ⟨trivial, trivial⟩

/-- The data of the next complete frame completes it; behind the last frame there is none. -/
theorem receiving_recvData {rest : List MbapFrame} (hrec : Receiving rest tail s)
    (h : step raw s .recvData = some t) :
    t.submitted = s.submitted ∧ Receiving rest tail t := by
  obtain ⟨hpc, hcase⟩ := step_recvData h
  rw [Receiving] at hrec
  rw [hpc] at hrec
  rcases hrec with ⟨f, fs, rfl, hhdr, hdata, hstream⟩ | ⟨rfl, hstream⟩
  · have hlen : s.tmpAdu.length = f.data.length := by rw [hhdr]; rfl
    have htake : s.stream.take s.tmpAdu.length = f.data := by
      rw [hstream, hlen, List.take_left]
    have hdrop : s.stream.drop s.tmpAdu.length = wire fs ++ tail := by
      rw [hstream, hlen, List.drop_left]
    rcases hcase with ⟨hnil, -⟩ | ⟨-, rfl⟩
    · exact absurd (htake ▸ hnil) hdata
    · refine ⟨rfl, f, fs, rfl, ModbusAdu.frame_eq hhdr ?_, hdrop⟩
      rw [htake, ModbusAdu.payload, hlen, take_overwrite]
  · rw [hstream, List.take_nil] at hcase
    rcases hcase with ⟨-, rfl⟩ | ⟨hne, -⟩
    · exact ⟨rfl, fun _ ↦ rfl⟩
    · exact absurd rfl hne

/-- **The step lemma**: an undisturbed step keeps the invariant, when the tail is one that is not
submitted. -/
theorem FramingInv.step (hfits : ∀ f ∈ frames, f.Fits raw) (htail : TailOk raw tail)
    (hhead : tail.length = mbapAndFcLength → ∃ f : MbapFrame, f.Fits raw ∧ f.data ≠ [] ∧
      tail = f.header)
    (hinv : FramingInv frames tail s₀ s) (hok : Undisturbed s a)
    (h : Modbus.step raw s a = some t) : FramingInv frames tail s₀ t := by
  obtain ⟨new, rest, hsub, hall, hrec⟩ := hinv
  -- every step but the submission itself leaves what has been submitted and what remains
  suffices hkeep : a ≠ .submitRx true → a ≠ .submitRx false →
      t.submitted = s.submitted ∧ Receiving rest tail t by
    by_cases hsubmit : ∃ ok, a = .submitRx ok
    · obtain ⟨ok, rfl⟩ := hsubmit
      simp only [Modbus.step, Option.ite_none_right_eq_some, Option.some.injEq] at h
      obtain ⟨hpc, rfl⟩ := h
      rw [Receiving] at hrec
      rw [hpc] at hrec
      obtain ⟨f, fs, rfl, hframe, hstream⟩ := hrec
      refine ⟨new ++ [s.tmpAdu], fs, ?_, ?_, ?_⟩
      · rw [hsub, List.append_assoc]
      · rw [List.map_append, List.map_singleton, hframe, List.append_assoc]
        exact hall
      · cases ok <;> exact hstream
    · obtain ⟨hsub', hrec'⟩ := hkeep (fun h ↦ hsubmit ⟨_, h⟩) (fun h ↦ hsubmit ⟨_, h⟩)
      exact ⟨new, rest, hsub'.trans hsub, hall, hrec'⟩
  intro hne hne'
  cases a with
  | accept stream => exact absurd hok id
  | drop =>
    simp only [Modbus.step, Option.ite_none_right_eq_some, Option.some.injEq] at h
    obtain ⟨-, rfl⟩ := h
    exact ⟨rfl, fun hpeer ↦ nomatch hpeer⟩
  | recvError =>
    simp only [Modbus.step, Option.ite_none_right_eq_some, Option.some.injEq] at h
    obtain ⟨-, rfl⟩ := h
    exact ⟨rfl, fun hpeer ↦ nomatch hpeer⟩
  | recvHeader mem =>
    cases rest with
    | nil => exact receiving_recvHeader_tail htail hhead hrec h
    | cons f fs =>
      refine receiving_recvHeader_frame (hfits f ?_) hrec h
      rw [← hall]
      simp
  | recvData => exact receiving_recvData hrec h
  | submitRx ok => cases ok <;> contradiction
  | semTake => exact receiving_of_answering (Or.inl rfl) hrec h
  | semTimeout => exact receiving_of_answering (Or.inr (Or.inl rfl)) hrec h
  | setFailure => exact receiving_of_answering (Or.inr (Or.inr (Or.inl rfl))) hrec h
  | sendHeader ok => exact receiving_of_answering (by simp) hrec h
  | sendData ok => exact receiving_of_answering (by simp) hrec h
  | rawTxFill k response =>
    simp only [Modbus.step, Option.ite_none_right_eq_some, Option.some.injEq] at h
    obtain ⟨-, rfl⟩ := h
    refine ⟨rfl, receiving_of_callback (s := s) rfl rfl hok hrec⟩
  | rawTxGive =>
    simp only [Modbus.step] at h
    split at h <;> simp only [Option.some.injEq, reduceCtorEq] at h
    subst h
    refine ⟨rfl, ?_⟩
    rw [Receiving] at hrec ⊢
    exact hrec

/-! ### Runs into a bad tail -/

/-- A receive of a header when the stream has bytes left. -/
theorem step_recvHeader_of_ne (raw : ModbusRaw) {mem : List UInt8} (hpc : s.pc = .top)
    (hmem : mem.length = mbapAndFcLength) (hne : s.stream ≠ []) :
    step raw s (.recvHeader mem) = some { s with
      pc := if 0 < (raw.getHeader (overwrite mem (s.stream.take mbapAndFcLength))).length then .body
        else .submit
      tmpAdu := { s.tmpAdu with
        toMbapHeader := raw.getHeader (overwrite mem (s.stream.take mbapAndFcLength)) }
      stream := s.stream.drop mbapAndFcLength } := by
  have htake : s.stream.take mbapAndFcLength ≠ [] := by
    rw [Ne, List.take_eq_nil_iff, not_or]
    exact ⟨by decide, hne⟩
  simp only [step, hpc, hmem, htake, and_self, if_true, if_false]

/-- A receive of the data when the stream has bytes left. -/
theorem step_recvData_of_ne (raw : ModbusRaw) (hpc : s.pc = .body)
    (hgot : s.stream.take s.tmpAdu.length ≠ []) :
    step raw s .recvData = some { s with
      pc := .submit
      tmpAdu := { s.tmpAdu with data := overwrite s.tmpAdu.data (s.stream.take s.tmpAdu.length) }
      stream := s.stream.drop s.tmpAdu.length } := by
  simp only [step, hpc, hgot, if_true, if_false]

/-- The core refuses a received ADU; the listener goes on with the next header. -/
theorem reaches_refused (hpc : s.pc = .submit) :
    Reaches (step raw) Undisturbed s
      { s with pc := .top, submitted := s.submitted ++ [s.tmpAdu] } := by
  refine Reaches.head (a := .submitRx false) trivial ?_ (Reaches.refl _)
  simp [step, hpc]

/-- From the head of `serve_once` a stream with bytes left gives a submission, when no data is
announced or some of it arrives. -/
theorem exists_reaches_submitted (mem : List UInt8) (hpc : s.pc = .top)
    (hmem : mem.length = mbapAndFcLength) (hne : s.stream ≠ []) {len : ℕ}
    (hlen : (raw.getHeader (overwrite mem (s.stream.take mbapAndFcLength))).length = len)
    (hdata : 0 < len → s.stream.drop mbapAndFcLength ≠ []) :
    ∃ t, Reaches (step raw) Undisturbed s t ∧ t.pc = .top ∧
      t.stream = s.stream.drop (mbapAndFcLength + len) ∧
      t.submitted.length = s.submitted.length + 1 := by
  have hstep := step_recvHeader_of_ne raw hpc hmem hne
  rw [hlen] at hstep
  by_cases hpos : 0 < len
  · have hgot : (s.stream.drop mbapAndFcLength).take len ≠ [] := by
      rw [Ne, List.take_eq_nil_iff, not_or]
      exact ⟨Nat.ne_of_gt hpos, hdata hpos⟩
    rw [if_pos hpos] at hstep
    have hrecv := step_recvData_of_ne raw (s := { s with
      pc := .body
      tmpAdu := { s.tmpAdu with
        toMbapHeader := raw.getHeader (overwrite mem (s.stream.take mbapAndFcLength)) }
      stream := s.stream.drop mbapAndFcLength }) rfl (by rw [hlen]; exact hgot)
    refine ⟨_, Reaches.head (a := .recvHeader mem) trivial hstep
      (Reaches.head (a := .recvData) trivial hrecv (reaches_refused rfl)), rfl, ?_, by simp⟩
    simp only [hlen, List.drop_drop]
  · obtain rfl : len = 0 := Nat.eq_zero_of_not_pos hpos
    rw [if_neg hpos] at hstep
    exact ⟨_, Reaches.head (a := .recvHeader mem) trivial hstep (reaches_refused rfl), rfl, rfl,
      by simp⟩

/-- The listener can come to the tail with one submission for each complete frame. -/
theorem exists_reaches_tail (hfits : ∀ f ∈ frames, f.Fits raw) (hpc : s.pc = .top)
    (hstream : s.stream = wire frames ++ tail) :
    ∃ t, Reaches (step raw) Undisturbed s t ∧ t.pc = .top ∧ t.stream = tail ∧
      t.submitted.length = s.submitted.length + frames.length := by
  induction frames generalizing s with
  | nil => exact ⟨s, Reaches.refl s, hpc, hstream, rfl⟩
  | cons f fs ih =>
    obtain ⟨hf, hfs⟩ := List.forall_mem_cons.1 hfits
    rw [wire_cons, List.append_assoc, List.append_assoc] at hstream
    set mem : List UInt8 := List.replicate mbapAndFcLength 0 with hmem
    have hlen : (raw.getHeader (overwrite mem (s.stream.take mbapAndFcLength))).length =
        f.data.length := by
      rw [hstream, take_header_append, overwrite_header (by simp [hmem]),
        raw.getHeader_header f hf]
      rfl
    have hsome : s.stream ≠ [] := by simp [hstream, MbapFrame.header]
    have hbody : 0 < f.data.length → s.stream.drop mbapAndFcLength ≠ [] := by
      intro hpos
      rw [hstream, drop_header_append]
      exact List.append_ne_nil_of_left_ne_nil (List.ne_nil_of_length_pos hpos) _
    obtain ⟨u, hsu, hupc, hustream, husub⟩ :=
      exists_reaches_submitted mem hpc (by simp [hmem]) hsome hlen hbody
    have hrest : u.stream = wire fs ++ tail := by
      rw [hustream, ← List.drop_drop, hstream, drop_header_append, List.drop_left]
    obtain ⟨t, hut, htpc, htstream, htsub⟩ := ih hfs hupc hrest
    refine ⟨t, hsu.trans hut, htpc, htstream, ?_⟩
    rw [htsub, husub, List.length_cons]
    omega

/-- A tail that is not harmless can be submitted. -/
theorem exists_reaches_submitted_tail {c : ℕ}
    (hbad : ¬ TailOk raw (truncatedTail frames c)) (hpc : s.pc = .top)
    (hstream : s.stream = truncatedTail frames c) :
    ∃ t, Reaches (step raw) Undisturbed s t ∧ t.submitted.length = s.submitted.length + 1 := by
  simp only [TailOk, not_or, not_and, not_forall] at hbad
  obtain ⟨hne, hlen, hmem⟩ := hbad
  rw [← hstream] at hne hlen hmem
  rcases Nat.lt_or_gt_of_ne hlen with hlt | hgt
  · -- part of a header: some stack content announces no data
    obtain ⟨mem, hml, hzero⟩ := hmem hlt
    have hz : (raw.getHeader (overwrite mem (s.stream.take mbapAndFcLength))).length = 0 := by
      rw [List.take_of_length_le (Nat.le_of_lt hlt)]
      omega
    obtain ⟨t, hst, -, -, hsub⟩ :=
      exists_reaches_submitted mem hpc hml hne hz (fun h ↦ absurd h (Nat.lt_irrefl 0))
    exact ⟨t, hst, hsub⟩
  · -- a header and part of its data
    have hdrop : s.stream.drop mbapAndFcLength ≠ [] := by
      rw [Ne, List.drop_eq_nil_iff]
      omega
    obtain ⟨t, hst, -, -, hsub⟩ := exists_reaches_submitted
      (List.replicate mbapAndFcLength 0) hpc (by simp) hne rfl (fun _ ↦ hdrop)
    exact ⟨t, hst, hsub⟩

/-! ### The main result -/

/-- **Exactly which cuts are submitted correctly.** A client sends frames that fit the ADU and
closes after `c` bytes. In every undisturbed run of the connection the complete frames are submitted
one after the other, and nothing else is, if and only if the tail is one that `TailOk` describes. -/
theorem serveOnce_frames_iff (raw : ModbusRaw) (frames : List MbapFrame)
    (hfits : ∀ f ∈ frames, f.Fits raw) (c : ℕ) (s₀ : Server) (hpc : s₀.pc = .top)
    (hstream : s₀.stream = (wire frames).take c) :
    (∀ as, AllSteps (step raw) Undisturbed s₀ as →
      Throughout (step raw) (SubmitsFrames (completeFrames frames c) s₀) s₀ as) ↔
      TailOk raw (truncatedTail frames c) := by
  have hcomplete : ∀ f ∈ completeFrames frames c, f.Fits raw :=
    fun f hf ↦ hfits f (subset_completeFrames frames c hf)
  rw [take_wire] at hstream
  constructor
  · intro hall
    by_contra hbad
    obtain ⟨t, hst, htpc, htstream, htsub⟩ := exists_reaches_tail hcomplete hpc hstream
    obtain ⟨u, htu, husub⟩ := exists_reaches_submitted_tail hbad htpc htstream
    -- one submission more than there are complete frames
    have hle := ((hst.trans htu).holds hall).1.length_le
    rw [Server.submittedSince, List.length_map, List.length_drop] at hle
    omega
  · intro htail as has
    have hhead : (truncatedTail frames c).length = mbapAndFcLength →
        ∃ f : MbapFrame, f.Fits raw ∧ f.data ≠ [] ∧ truncatedTail frames c = f.header := by
      intro hlen
      obtain ⟨f, hf, hdata, htake⟩ := take_truncatedTail (Nat.le_of_eq hlen.symm)
      rw [List.take_of_length_le (Nat.le_of_eq hlen)] at htake
      exact ⟨f, hfits f hf, hdata, htake⟩
    have hinv : FramingInv (completeFrames frames c) (truncatedTail frames c) s₀ s₀ := by
      refine ⟨[], completeFrames frames c, by simp, by simp, ?_⟩
      rw [Receiving]
      rw [hpc]
      exact hstream
    exact (throughout_of_invariant
      (fun s a t h hok hstep ↦ FramingInv.step hcomplete htail hhead h hok hstep) hinv has).imp
      fun s hs ↦ hs.submitsFrames

/-- A client has just connected after boot; it sends the first `c` bytes of these frames. -/
def Server.connected (raw : ModbusRaw) (frames : List MbapFrame) (c : ℕ) : Server :=
  { Server.boot raw with pc := .top, stream := (wire frames).take c }

/-- Two register writes: the set point is to be 50 and the mode 2. -/
def twoWrites : List MbapFrame := [⟨1, 0, 1, 6, [0, 0, 0, 50]⟩, ⟨2, 0, 1, 6, [0, 1, 0, 2]⟩]

/-- On a connection that carries both writes whole. -/
theorem serveOnce_frames_twoWrites :
    (∀ f ∈ twoWrites, f.Fits zephyrRaw) ∧
      ((∀ as, AllSteps (step zephyrRaw) Undisturbed (.connected zephyrRaw twoWrites 24) as →
        Throughout (step zephyrRaw)
          (SubmitsFrames (completeFrames twoWrites 24) (.connected zephyrRaw twoWrites 24))
          (.connected zephyrRaw twoWrites 24) as) ↔
        TailOk zephyrRaw (truncatedTail twoWrites 24)) :=
  ⟨by decide, serveOnce_frames_iff zephyrRaw twoWrites (by decide) 24
    (.connected zephyrRaw twoWrites 24) rfl rfl⟩

/-- The first write is served; then the client closes two bytes before the end of the second. -/
def cutWriteRun : List Action :=
  [.recvHeader (List.replicate 8 0), .recvData, .submitRx true,
    .rawTxFill 0 ⟨1, 0, 1, 6, [0, 0, 0, 50]⟩, .rawTxGive, .semTake, .sendHeader true,
    .sendData true, .recvHeader (List.replicate 8 0), .recvData, .submitRx true]

/-- The truncated write is submitted, with the last two data bytes of the write before it: the mode
is to be 50. -/
theorem not_submitsFrames_cutWriteRun :
    ¬ ∀ (frames : List MbapFrame) (c : ℕ) (as : List Action),
      (∀ f ∈ frames, f.Fits zephyrRaw) →
      AllSteps (step zephyrRaw) SameConnection (.connected zephyrRaw frames c) as →
      Throughout (step zephyrRaw)
        (SubmitsFrames (completeFrames frames c) (.connected zephyrRaw frames c))
        (.connected zephyrRaw frames c) as := by
  intro h
  exact absurd (h twoWrites 22 cutWriteRun (by decide) (by decide)) (by decide)

end ThinEdge.Modbus

import Mathlib.Data.List.Chain
import ThinEdge.Provisioner.ImprovGrammar

/-!
# Improv: frames that are cut into several writes

`write_rpc` guesses from the bytes collected so far whether a write at offset 0 continues a frame:
it does when at least two bytes have been collected, and fewer than the length byte announces, and
the last write was less than two seconds ago. A frame that is cut after its first byte is therefore
not reassembled: its second chunk is taken for the start of a frame. `reassembled_iff` says that
this and a pause are all that can go wrong.
-/

namespace ThinEdge.Provisioner

/-- A complete RPC frame that fits the receive buffer: command, length, that many bytes, checksum.
-/
structure RpcFrame (f : List UInt8) : Prop where
  length_eq : f.length = (f.getD 1 0).toNat + 3
  length_le : f.length ≤ frameMax
  checksum_eq : checksum f (f.length - 1) = f.getD (f.length - 1) 0

/-- A chunk of a frame with the time it is written at. -/
abbrev Chunk := ℕ × List UInt8

/-- A plain write at offset 0. -/
def chunkWrite (bytes : List UInt8) : GattWrite := ⟨bytes, 0, false, false⟩

/-- The state after a chunk. -/
def writeChunk (s : ImprovShared) (c : Chunk) : ImprovShared := (writeRpc s c.1 (chunkWrite c.2)).1

/-- The frames that `handle_frame` is called with while chunks are written. -/
def handledFrames : ImprovShared → List Chunk → List (List UInt8)
  | _, [] => []
  | s, c :: cs => (assembled s c.1 (chunkWrite c.2)).toList ++ handledFrames (writeChunk s c) cs

/-- The bytes of chunks, in order. -/
def chunkBytes (cs : List Chunk) : List UInt8 := cs.flatMap Prod.snd

/-- Each chunk is written less than two seconds after the one before it. -/
def Prompt (cs : List Chunk) : Prop := (cs.map Prod.fst).IsChain fun a b ↦ b - a < 2000

instance (cs : List Chunk) : Decidable (Prompt cs) := inferInstanceAs (Decidable (List.IsChain _ _))

variable {s t r : ImprovShared} {c : Chunk} {cs : List Chunk} {f p : List UInt8}

/-! ### No byte counts twice -/

theorem appendsTo_chunkWrite (s : ImprovShared) (now : ℕ) (bytes : List UInt8) :
    appendsTo s now (chunkWrite bytes) =
      some { s with
        rxLen := if s.continuing now (chunkWrite bytes) then s.rxLen else 0, rxLast := now } := rfl

/-- A chunk that does not continue a frame starts over. -/
theorem handledFrames_of_not_continuing (h : ¬ s.continuing c.1 (chunkWrite c.2) = true) :
    handledFrames s (c :: cs) = handledFrames { s with rxLen := 0 } (c :: cs) := by
  have happ : appendsTo s c.1 (chunkWrite c.2) =
      appendsTo { s with rxLen := 0 } c.1 (chunkWrite c.2) := by
    rw [appendsTo_chunkWrite, appendsTo_chunkWrite, if_neg h]
    simp
  rw [handledFrames, handledFrames, assembled, assembled, toHandle, toHandle, happ, writeChunk,
    writeChunk, writeRpc_eq, writeRpc_eq, happ, appendsTo_chunkWrite]
  rfl

theorem length_rxBytes (h : RxInv s) : s.rxBytes.length = s.rxLen :=
  List.length_take_of_le (by rw [h.length_rxBuf]; exact h.rxLen_le)

theorem rxLen_appendRpc_le (s : ImprovShared) (bytes : List UInt8) :
    (appendRpc s bytes).rxLen ≤ s.rxLen + bytes.length := by
  rw [appendRpc]
  split
  · exact Nat.zero_le _
  dsimp only
  split
  · exact Nat.zero_le _
  · exact Nat.le_refl _

/-- One chunk: its bytes go into a frame, wait in the buffer, or are dropped. -/
theorem length_assembled_le (h : RxInv s) (c : Chunk) :
    (assembled s c.1 (chunkWrite c.2)).toList.flatten.length + (writeChunk s c).rxLen ≤
      s.rxLen + c.2.length := by
  obtain ⟨t, happ⟩ : ∃ t, appendsTo s c.1 (chunkWrite c.2) = some t :=
    ⟨_, appendsTo_chunkWrite s c.1 c.2⟩
  obtain ⟨-, -, hlen⟩ := appendsTo_eq_some happ
  rw [assembled, toHandle, writeChunk, writeRpc_eq, happ, Option.bind_some, Option.elim_some]
  rcases Decidable.em (t.Completes c.2) with hcompl | hcompl
  · have hbytes := length_rxBytes ((h.appendsTo happ).received hcompl.1)
    rw [if_pos (show t.Completes (chunkWrite c.2).bytes from hcompl),
      show (chunkWrite c.2).bytes = c.2 from rfl, appendRpc_of_completes hcompl, Option.map_some,
      Option.toList_some, List.flatten_cons, List.flatten_nil, List.append_nil, hbytes]
    exact Nat.add_le_add_right hlen _
  · have hrx := rxLen_appendRpc_le t c.2
    rw [if_neg (show ¬ t.Completes (chunkWrite c.2).bytes from hcompl), Option.map_none,
      Option.toList_none, List.flatten_nil, List.length_nil, Nat.zero_add]
    exact Nat.le_trans hrx (Nat.add_le_add_right hlen _)

/-- **The frames that are handled have no more bytes than were written.** -/
theorem length_handledFrames_le (h : RxInv s) (cs : List Chunk) :
    (handledFrames s cs).flatten.length ≤ s.rxLen + (chunkBytes cs).length := by
  induction cs generalizing s with
  | nil => exact Nat.zero_le _
  | cons c cs ih =>
    have hone := length_assembled_le h c
    have hrest := ih (h.writeRpc c.1 (chunkWrite c.2))
    rw [handledFrames, List.flatten_append, List.length_append, chunkBytes, List.flatMap_cons,
      List.length_append]
    rw [writeChunk] at hone ⊢
    rw [chunkBytes] at hrest
    omega

/-! ### Collecting a frame -/

/-- The state that has collected the bytes `p` of a frame, the last of them at `now`. -/
def collect (s : ImprovShared) (p : List UInt8) (now : ℕ) : ImprovShared :=
  { s with rxBuf := p ++ s.rxBuf.drop p.length, rxLen := p.length, rxLast := now }

theorem collect_nil (h : s.rxLen = 0) : collect s [] s.rxLast = s := by
  obtain ⟨curState, curError, rxBuf, rxLen, rxLast, provQ⟩ := s
  obtain rfl : rxLen = 0 := h
  rfl

theorem received_collect (s : ImprovShared) (p bytes : List UInt8) (now : ℕ) :
    (collect s p now).received bytes = collect s (p ++ bytes) now := by
  simp only [collect, ImprovShared.received, List.take_left', List.length_append,
    List.drop_length_add_append, List.drop_drop]

/-- Two bytes of a frame say how long it is going to be. -/
theorem frameLength_collect {rest : List UInt8} (hf : RpcFrame f) (hp : p ++ rest = f)
    (h2 : 2 ≤ p.length) (now : ℕ) : (collect s p now).frameLength = f.length := by
  have hget : (p ++ s.rxBuf.drop p.length).getD 1 0 = f.getD 1 0 := by
    rw [← hp, List.getD_eq_getElem?_getD, List.getD_eq_getElem?_getD,
      List.getElem?_append_left h2, List.getElem?_append_left h2]
  rw [ImprovShared.frameLength, hf.length_eq, ← hget]
  rfl

/-- What has been collected continues, unless it is too little or too old. -/
theorem continuing_collect {rest : List UInt8} (hf : RpcFrame f) (hp : p ++ rest = f)
    (hrest : rest ≠ []) (now : ℕ) (c : Chunk) :
    (collect s p now).continuing c.1 (chunkWrite c.2) = true ↔
      2 ≤ p.length ∧ c.1 - now < 2000 := by
  have hlen : p.length < f.length := by
    rw [← hp, List.length_append]
    exact Nat.lt_add_of_pos_right (List.length_pos_iff.2 hrest)
  have hrxLen : (collect s p now).rxLen = p.length := rfl
  have hlast : (collect s p now).rxLast = now := rfl
  rw [ImprovShared.continuing, hrxLen, hlast]
  simp only [Bool.and_eq_true, decide_eq_true_eq]
  constructor
  · rintro ⟨⟨⟨h2, -⟩, hgap⟩, -⟩
    exact ⟨h2, hgap⟩
  · rintro ⟨h2, hgap⟩
    refine ⟨⟨⟨h2, ?_⟩, hgap⟩, rfl⟩
    rw [frameLength_collect hf hp h2]
    exact hlen

/-- A chunk is appended to nothing, or to what it continues. -/
theorem appendsTo_collect {now : ℕ}
    (h : p = [] ∨ (collect s p now).continuing c.1 (chunkWrite c.2) = true) :
    appendsTo (collect s p now) c.1 (chunkWrite c.2) = some (collect s p c.1) := by
  rw [appendsTo_chunkWrite]
  rcases h with rfl | h
  · rw [show (collect s [] now).rxLen = 0 from rfl, ite_self]
    rfl
  · rw [if_pos h]
    rfl

/-- The frame is complete with its last byte. -/
theorem completes_collect {rest : List UInt8} (hf : RpcFrame f) (now : ℕ) {bytes : List UInt8}
    (hp : p ++ bytes ++ rest = f) : (collect s p now).Completes bytes ↔ rest = [] := by
  have hlen : (p ++ bytes).length + rest.length = f.length := by
    rw [← hp, ← List.length_append]
  have hthree : 3 ≤ f.length := by
    rw [hf.length_eq]
    exact Nat.le_add_left _ _
  have hmax := hf.length_le
  have hrxLen : (collect s (p ++ bytes) now).rxLen = (p ++ bytes).length := rfl
  rw [ImprovShared.Completes, received_collect, hrxLen]
  constructor
  · rintro ⟨-, h2, hframe⟩
    rw [frameLength_collect hf hp h2] at hframe
    exact List.length_eq_zero_iff.1 (by omega)
  · rintro rfl
    rw [List.length_nil, Nat.add_zero] at hlen
    refine ⟨?_, by omega, ?_⟩
    · rw [List.length_append] at hlen
      exact show p.length + bytes.length ≤ frameMax by omega
    · rw [frameLength_collect hf hp (by omega), hlen]

/-- **A chunk in the middle of a frame is collected.** -/
theorem writeChunk_collect {rest : List UInt8} (now : ℕ) (hf : RpcFrame f)
    (hp : p ++ c.2 ++ rest = f) (hrest : rest ≠ [])
    (h : p = [] ∨ (collect s p now).continuing c.1 (chunkWrite c.2) = true) :
    assembled (collect s p now) c.1 (chunkWrite c.2) = none ∧
      writeChunk (collect s p now) c = collect s (p ++ c.2) c.1 := by
  have happ := appendsTo_collect h
  have hcompl : ¬ (collect s p c.1).Completes c.2 := mt (completes_collect hf c.1 hp).1 hrest
  have hfit : ¬ frameMax < (collect s p c.1).rxLen + c.2.length := by
    have hlen := congrArg List.length hp
    have hmax := hf.length_le
    rw [List.length_append, List.length_append] at hlen
    exact show ¬ frameMax < p.length + c.2.length by omega
  constructor
  · rw [assembled, toHandle, happ, Option.bind_some,
      if_neg (show ¬ (collect s p c.1).Completes (chunkWrite c.2).bytes from hcompl),
      Option.map_none]
  · rw [writeChunk, writeRpc_eq, happ, Option.elim_some, appendRpc, show (chunkWrite c.2).bytes =
      c.2 from rfl, if_neg hfit, received_collect]
    dsimp only
    rw [if_neg fun hready ↦ hcompl ⟨Nat.not_lt.1 hfit, by rw [received_collect]; exact hready⟩]

/-- **The last chunk of a frame completes it**, and the state is then the one after the whole frame
at once. -/
theorem writeChunk_complete (now : ℕ) (hf : RpcFrame f) (hp : p ++ c.2 = f)
    (h : p = [] ∨ (collect s p now).continuing c.1 (chunkWrite c.2) = true) :
    assembled (collect s p now) c.1 (chunkWrite c.2) = some f ∧
      writeChunk (collect s p now) c =
        { handleFrame (collect s f c.1) (collect s f c.1).rxBuf f.length with
          rxBuf := List.replicate frameMax 0, rxLen := 0 } := by
  have happ := appendsTo_collect h
  have hp' : p ++ c.2 ++ [] = f := by rw [List.append_nil, hp]
  have hcompl : (collect s p c.1).Completes c.2 := (completes_collect hf c.1 hp').2 rfl
  constructor
  · rw [assembled, toHandle, happ, Option.bind_some,
      if_pos (show (collect s p c.1).Completes (chunkWrite c.2).bytes from hcompl),
      show (chunkWrite c.2).bytes = c.2 from rfl, received_collect, hp, Option.map_some,
      ImprovShared.rxBytes]
    exact congrArg some List.take_left
  · rw [writeChunk, writeRpc_eq, happ, Option.elim_some, show (chunkWrite c.2).bytes = c.2 from rfl,
      appendRpc_of_completes hcompl, received_collect, hp]
    rfl

/-- The frame is handled as if it had been written at once, at the time of the last chunk. -/
def AsAtOnce (s : ImprovShared) (cs : List Chunk) (f : List UInt8) : Prop :=
  handledFrames s cs = [f] ∧
    ∀ c ∈ cs.getLast?, cs.foldl writeChunk s = writeChunk s (c.1, f)

theorem chunkBytes_ne_nil (hne : ∀ c ∈ cs, c.2 ≠ []) (h : cs ≠ []) : chunkBytes cs ≠ [] := by
  obtain ⟨c, cs, rfl⟩ := List.exists_cons_of_ne_nil h
  rw [chunkBytes, List.flatMap_cons]
  exact List.append_ne_nil_of_left_ne_nil (hne c List.mem_cons_self) _

/-- A chunk that does not continue loses what has been collected. -/
theorem handledFrames_ne_of_lost {now : ℕ} (hs : RxInv s) (hp : p ++ chunkBytes (c :: cs) = f)
    (hpos : p ≠ []) (hfit : p.length ≤ frameMax)
    (h : ¬ (collect s p now).continuing c.1 (chunkWrite c.2) = true) :
    handledFrames (collect s p now) (c :: cs) ≠ [f] := by
  intro hall
  have hinv : RxInv { collect s p now with rxLen := 0 } := by
    refine ⟨?_, Nat.zero_le _⟩
    show (p ++ s.rxBuf.drop p.length).length = frameMax
    rw [List.length_append, List.length_drop, hs.length_rxBuf]
    omega
  have hle := length_handledFrames_le hinv (c :: cs)
  rw [← handledFrames_of_not_continuing h, hall, ← hp, List.flatten_cons, List.flatten_nil,
    List.append_nil, List.length_append] at hle
  have hlen := List.length_pos_iff.2 hpos
  have hzero : ({ collect s p now with rxLen := 0 } : ImprovShared).rxLen = 0 := rfl
  omega

/-- **From two bytes on, a frame is reassembled exactly when its chunks come promptly.** -/
theorem asAtOnce_collect (now : ℕ) (hf : RpcFrame f) (hs : RxInv s) (hne : ∀ c ∈ cs, c.2 ≠ [])
    (hcs : cs ≠ []) (hp : p ++ chunkBytes cs = f) (h2 : 2 ≤ p.length) :
    (handledFrames (collect s p now) cs = [f] ↔
        (now :: cs.map Prod.fst).IsChain fun a b ↦ b - a < 2000) ∧
      ((now :: cs.map Prod.fst).IsChain (fun a b ↦ b - a < 2000) →
        ∀ c ∈ cs.getLast?, cs.foldl writeChunk (collect s p now) =
          { handleFrame (collect s f c.1) (collect s f c.1).rxBuf f.length with
            rxBuf := List.replicate frameMax 0, rxLen := 0 }) := by
  induction cs generalizing p now with
  | nil => exact absurd rfl hcs
  | cons c cs ih =>
    have hp' : p ++ c.2 ++ chunkBytes cs = f := by
      rw [← hp, chunkBytes, chunkBytes, List.flatMap_cons, List.append_assoc]
    have hc := hne c List.mem_cons_self
    have hcont := continuing_collect (s := s) hf hp (by simp [chunkBytes, hc]) now c
    rw [List.map_cons, List.isChain_cons_cons]
    -- the next chunk comes in time, and continues, or what was collected is lost
    rcases Decidable.em (c.1 - now < 2000) with hgap | hgap
    · have hgo := hcont.2 ⟨h2, hgap⟩
      rcases eq_or_ne cs [] with rfl | hmore
      · rw [chunkBytes, List.flatMap_nil, List.append_nil] at hp'
        obtain ⟨hasm, hstate⟩ := writeChunk_complete now hf hp' (Or.inr hgo)
        refine ⟨iff_of_true ?_ ⟨hgap, List.isChain_singleton _⟩, fun _ d hd ↦ ?_⟩
        · rw [handledFrames, hasm]
          rfl
        · obtain rfl : c = d := Option.some.inj hd
          exact hstate
      · have hrest := chunkBytes_ne_nil (fun d hd ↦ hne d (List.mem_cons_of_mem c hd)) hmore
        obtain ⟨hasm, hstate⟩ := writeChunk_collect now hf hp' hrest (Or.inr hgo)
        have hlen : 2 ≤ (p ++ c.2).length := by
          rw [List.length_append]
          exact Nat.le_add_right_of_le h2
        obtain ⟨hiff, hend⟩ := ih c.1 (fun d hd ↦ hne d (List.mem_cons_of_mem c hd)) hmore hp' hlen
        rw [handledFrames, hasm, hstate, Option.toList_none, List.nil_append, List.foldl_cons,
          hstate, List.getLast?_cons_of_ne_nil hmore]
        exact ⟨hiff.trans (and_iff_right hgap).symm, fun h ↦ hend h.2⟩
    · have hfit : p.length ≤ frameMax := by
        have hlen := congrArg List.length hp
        have hmax := hf.length_le
        rw [List.length_append] at hlen
        omega
      have hlost := handledFrames_ne_of_lost hs hp (by rintro rfl; simp at h2) hfit
        fun hgo ↦ hgap (hcont.1 hgo).2
      exact ⟨iff_of_false hlost fun h ↦ hgap h.1, fun h ↦ absurd h.1 hgap⟩

/-- **When a frame is reassembled**: however it is cut into chunks, it is handled as if it had been
written at once exactly when the first chunk has at least two bytes and each chunk is written less
than two seconds after the one before it. -/
theorem reassembled_iff (hf : RpcFrame f) (hs : RxInv s) (hidle : s.rxLen = 0)
    (hne : ∀ c ∈ cs, c.2 ≠ []) (hcut : chunkBytes cs = f) :
    AsAtOnce s cs f ↔ (∀ c ∈ cs.head?, 2 ≤ c.2.length) ∧ Prompt cs := by
  have hthree : 3 ≤ f.length := by
    rw [hf.length_eq]
    exact Nat.le_add_left _ _
  have hself := collect_nil hidle
  -- what the frame does when it is written at once
  have honce : ∀ now, writeChunk s (now, f) =
      { handleFrame (collect s f now) (collect s f now).rxBuf f.length with
        rxBuf := List.replicate frameMax 0, rxLen := 0 } := fun now ↦ by
    have hwhole := (writeChunk_complete (s := s) (c := (now, f)) s.rxLast hf (List.nil_append f)
      (Or.inl rfl)).2
    rw [hself] at hwhole
    exact hwhole
  rcases cs with - | ⟨c, cs⟩
  · rw [← hcut] at hthree
    exact absurd hthree (by decide)
  have hp : [] ++ c.2 ++ chunkBytes cs = f := by
    rw [← hcut, chunkBytes, chunkBytes, List.flatMap_cons, List.nil_append]
  have hhead : (∀ d ∈ (c :: cs).head?, 2 ≤ d.2.length) ↔ 2 ≤ c.2.length := by simp
  rw [AsAtOnce, hhead, Prompt, List.map_cons]
  rcases eq_or_ne cs [] with rfl | hmore
  · rw [chunkBytes, List.flatMap_nil, List.append_nil, List.nil_append] at hp
    obtain ⟨hasm, -⟩ := writeChunk_complete (s := s) s.rxLast hf ((List.nil_append _).trans hp)
      (Or.inl rfl)
    rw [hself] at hasm
    refine iff_of_true ⟨?_, fun d hd ↦ ?_⟩ ⟨by rw [hp]; omega, List.isChain_singleton _⟩
    · rw [handledFrames, hasm]
      rfl
    · obtain rfl : c = d := Option.some.inj hd
      rw [← hp]
      rfl
  · have hne' : ∀ d ∈ cs, d.2 ≠ [] := fun d hd ↦ hne d (List.mem_cons_of_mem c hd)
    have hrest := chunkBytes_ne_nil hne' hmore
    obtain ⟨hasm, hstate⟩ := writeChunk_collect (s := s) s.rxLast hf hp hrest (Or.inl rfl)
    rw [hself] at hasm hstate
    rw [List.nil_append] at hp hstate
    rw [handledFrames, hasm, hstate, Option.toList_none, List.nil_append, List.foldl_cons, hstate,
      List.getLast?_cons_of_ne_nil hmore]
    rcases Nat.lt_or_ge c.2.length 2 with hshort | h2
    · -- the byte that was collected is lost
      refine iff_of_false (fun h ↦ ?_) fun h ↦ absurd h.1 (Nat.not_le.2 hshort)
      obtain ⟨d, ds, rfl⟩ := List.exists_cons_of_ne_nil hmore
      refine handledFrames_ne_of_lost hs hp (hne c List.mem_cons_self) ?_ (fun hgo ↦ ?_) h.1
      · exact Nat.le_trans (Nat.le_of_lt hshort) (by decide)
      · exact absurd ((continuing_collect hf hp hrest c.1 d).1 hgo).1 (Nat.not_le.2 hshort)
    · obtain ⟨hiff, hend⟩ := asAtOnce_collect c.1 hf hs hne' hmore hp h2
      rw [and_iff_right h2, ← hiff]
      refine ⟨fun h ↦ h.1, fun h ↦ ⟨h, fun d hd ↦ ?_⟩⟩
      rw [hend (hiff.1 h) d hd, honce]

/-- The settings of the open network `h`. -/
def openFrame : List UInt8 := [1, 3, 1, 104, 0, 109]

theorem rpcFrame_openFrame : RpcFrame openFrame := ⟨by decide, by decide, by decide⟩

theorem asAtOnce_openFrame :
    AsAtOnce (.boot false) [(0, [1, 3]), (1500, [1]), (3000, [104, 0, 109])] openFrame :=
  (reassembled_iff rpcFrame_openFrame (rxInv_boot false) rfl (by decide) rfl).2
    ⟨by decide, by decide⟩

/-- The same frame, cut after its first byte, is handled without that byte. -/
theorem not_asAtOnce_of_first_byte :
    ¬ ∀ (s : ImprovShared) (cs : List Chunk) (f : List UInt8), RpcFrame f → RxInv s →
      s.rxLen = 0 → (∀ c ∈ cs, c.2 ≠ []) → chunkBytes cs = f → Prompt cs → AsAtOnce s cs f := by
  intro h
  have hcut := h (.boot false) [(0, [1]), (100, [3, 1, 104, 0, 109])] openFrame rpcFrame_openFrame
    (rxInv_boot false) rfl (by decide) rfl (by decide)
  exact absurd hcut.1 (by decide)

end ThinEdge.Provisioner

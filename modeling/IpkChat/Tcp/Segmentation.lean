/-
  Tcp/Segmentation.lean --- how a stream is cut into chunks does not matter.

  await asks tcp_check_previous for a complete line and calls tcp_recv_msg only when
  there is none; `TcpConsumes` is this discipline, applied until the chunks are
  used up and no line is left.  The contents of the buffer followed by the chunks
  to come is the part of the stream not yet processed, and every step either
  leaves it alone or takes its first line away.
-/
import IpkChat.Tcp.Comm

set_option autoImplicit false

namespace IpkChat.Tcp

open IpkChat.Foundation IpkChat.Core

/-! ## Consuming chunks -/

/-- The chunks are consumed as await does, with these results. -/
inductive TcpConsumes : World → List Bytes → List MsgType → World → Prop where
  | done {w w' : World} (hcheck : tcpCheckPrevious w true = (w', none)) : TcpConsumes w [] [] w'
  | previous {w w' final : World} {chunks : List Bytes} {type : MsgType} {results : List MsgType}
      (hcheck : tcpCheckPrevious w true = (w', some type))
      (hrest : TcpConsumes w' chunks results final) :
      TcpConsumes w chunks (type :: results) final
  | receive {w w' final : World} {chunk : Bytes} {chunks : List Bytes} {results : List MsgType}
      {a : Arrival} (src : SockAddr) (errno : Errno)
      (hcheck : tcpCheckPrevious w true = (w', none)) (hresult : a.result = .data src chunk errno)
      (hbuffer : a.bufferAlloc = true) (hline : a.lineAlloc = true)
      (hrest : TcpConsumes (tcpRecvMsg w' a).1 chunks results final) :
      TcpConsumes w (chunk :: chunks) ((tcpRecvMsg w' a).2 :: results) final

/-- The result of processing one line. -/
def lineResult (m : Bytes) : MsgType := (tcpProcessMsg (m ++ [0])).type

/-- What processing one line prints. -/
def linePrints (m : Bytes) : List Event := World.printEvents (tcpProcessMsg (m ++ [0]))

/-- No line is taken for the absence of a line. -/
theorem lineResult_ne_local (m : Bytes) : lineResult m ≠ .local_ := by
  intro hlocal
  have htype := tcpProcessMsg_type (m ++ [0])
  rw [show (tcpProcessMsg (m ++ [0])).type = .local_ from hlocal] at htype
  exact absurd htype (by decide)

/-! ## Steps -/

/-- A bound on lines that keeps the sums of lengths in the range of an int. -/
def maxLine : Nat := 2 ^ 30

/-- No line of the stream, and not its tail, is longer than `maxLine`. -/
def LinesFit (stream : Bytes) : Prop :=
  (∀ m ∈ (frames crlfBytes stream).1, m.length ≤ maxLine) ∧
    (frames crlfBytes stream).2.length ≤ maxLine

instance (stream : Bytes) : Decidable (LinesFit stream) := inferInstanceAs (Decidable (_ ∧ _))

/-- The buffer is in order and has room to come for the rest of the stream. -/
structure Pending (b : MsgBuffer) (rest : Bytes) : Prop where
  wf : b.WellFormed
  size_le : b.size ≤ maxLine + 2 * bufferSize
  fit : LinesFit (b.contents ++ rest)

theorem crlfBytes_ne_nil : crlfBytes ≠ [] := by decide

/-- Taking the first line out of the buffer takes it off the stream. -/
theorem Pending.takeLine {b b' : MsgBuffer} {rest m : Bytes} (h : Pending b rest)
    (hcut : cut crlfBytes b.contents = some (m, b'.contents)) (hwf : b'.WellFormed)
    (hsize : b'.size = b.size) :
    Pending b' rest ∧ frames crlfBytes (b.contents ++ rest) =
      (m :: (frames crlfBytes (b'.contents ++ rest)).1,
        (frames crlfBytes (b'.contents ++ rest)).2) := by
  have hframes := frames_of_cut crlfBytes_ne_nil (cut_append hcut rest)
  refine ⟨⟨hwf, hsize ▸ h.size_le, ?_, ?_⟩, hframes⟩
  · intro m' hm'
    refine h.fit.1 m' ?_
    rw [hframes]
    exact List.mem_cons_of_mem m hm'
  · have := h.fit.2
    rwa [hframes] at this

/-- An unfinished line in the buffer is not longer than a line may be. -/
theorem Pending.length_le {b : MsgBuffer} {rest : Bytes} (h : Pending b rest)
    (hcut : cut crlfBytes b.contents = none) : b.contents.length ≤ maxLine := by
  cases hall : cut crlfBytes (b.contents ++ rest) with
  | none =>
      have := h.fit.2
      rw [frames_of_cut_none hall, List.length_append] at this
      omega
  | some mr =>
      obtain ⟨m, r⟩ := mr
      have hlt := length_lt_of_cut_append hcut hall
      have := h.fit.1 m (by rw [frames_of_cut crlfBytes_ne_nil hall]; exact List.mem_cons_self)
      omega

/-- The buffer after a chunk was appended to an unfinished line. -/
theorem Pending.append {b : MsgBuffer} {chunk rest : Bytes} (h : Pending b (chunk ++ rest))
    (hcut : cut crlfBytes b.contents = none) (hnul : (0 : UInt8) ∉ chunk)
    (hchunk : chunk.length ≤ bufferSize - 1) :
    ∃ b', bufferAppend b (rcvBuffer chunk) (chunk.length : Nat) true = (b', true) ∧
      Pending b' rest ∧ b'.contents = b.contents ++ chunk := by
  have hline := h.length_le hcut
  have hlen := MsgBuffer.length_contents h.wf
  have hsize := h.size_le
  have hle := h.wf.msgLen_le
  have hcstr : cstr (rcvBuffer chunk) = chunk := by
    have hpos : bufferSize - min chunk.length (bufferSize - 1) =
        bufferSize - min chunk.length (bufferSize - 1) - 1 + 1 := by
      simp only [bufferSize] at hchunk ⊢; omega
    rw [rcvBuffer, List.take_of_length_le hchunk, hpos, List.replicate_succ]
    exact cstr_append_zero hnul _
  have hspec := @bufferAppend_spec b h.wf (rcvBuffer chunk) chunk.length (by rw [hcstr]) (by omega)
    (by simp only [maxLine, bufferSize] at hsize ⊢; omega)
  rw [hcstr, List.take_of_length_le (Nat.le_refl _)] at hspec
  obtain ⟨hok, hwf, hcontents, hgrow⟩ := hspec
  refine ⟨(bufferAppend b (rcvBuffer chunk) chunk.length true).1, Prod.ext rfl hok, ⟨hwf, ?_, ?_⟩,
    hcontents⟩
  · rcases hgrow with heq | ⟨hshort, heq⟩
    · rw [heq]; exact hsize
    · rw [heq]
      simp only [maxLine, bufferSize] at hline hchunk ⊢
      omega
  · rw [hcontents, List.append_assoc]
    exact h.fit

/-! ## Runs -/

/-- What is left of the stream when the buffer holds `b` and `chunks` are to come. -/
def unprocessed (b : MsgBuffer) (chunks : List Bytes) : Bytes := b.contents ++ chunks.flatten

/-- A chunk of a stream: not empty, free of zeros and within the receive buffer. -/
structure IsChunk (chunk : Bytes) : Prop where
  nonempty : 1 ≤ chunk.length
  length_le : chunk.length ≤ bufferSize - 1
  nulFree : (0 : UInt8) ∉ chunk

instance (chunk : Bytes) : Decidable (IsChunk chunk) :=
  decidable_of_iff (1 ≤ chunk.length ∧ chunk.length ≤ bufferSize - 1 ∧ (0 : UInt8) ∉ chunk)
    ⟨fun h => ⟨h.1, h.2.1, h.2.2⟩, fun h => ⟨h.1, h.2, h.3⟩⟩

/-- What tcp_check_previous does to a buffer in order. -/
theorem tcpCheckPrevious_cases {w : World} {rest : Bytes} (h : Pending w.msgBuffer rest) :
    (cut crlfBytes w.msgBuffer.contents = none ∧ tcpCheckPrevious w true = (w, none)) ∨
      ∃ m w', tcpCheckPrevious w true = (w', some (lineResult m)) ∧
        cut crlfBytes w.msgBuffer.contents = some (m, w'.msgBuffer.contents) ∧
        Pending w'.msgBuffer rest ∧ w'.trace = w.trace ++ linePrints m ∧
        frames crlfBytes (w.msgBuffer.contents ++ rest) =
          (m :: (frames crlfBytes (w'.msgBuffer.contents ++ rest)).1,
            (frames crlfBytes (w'.msgBuffer.contents ++ rest)).2) := by
  rcases bufferGetMsg_cases h.wf with ⟨hcut, hget⟩ | ⟨m, b', hget, hcut, hwf, hsize⟩
  · exact Or.inl ⟨hcut, by rw [tcpCheckPrevious, hget]⟩
  · obtain ⟨hpending, hframes⟩ := h.takeLine hcut hwf hsize
    refine Or.inr ⟨m, ({ w with msgBuffer := b' } : World).printParsed (tcpProcessMsg (m ++ [0])),
      by rw [tcpCheckPrevious, hget]; rfl, ?_, ?_, by simp [linePrints], ?_⟩
    · simpa using hcut
    · simpa using hpending
    · simpa using hframes

/-- What tcp_recv_msg does with a chunk while the buffer holds no complete line. -/
theorem tcpRecvMsg_cases {w : World} {a : Arrival} {src : SockAddr} {errno : Errno}
    {chunk rest : Bytes} (h : Pending w.msgBuffer (chunk ++ rest))
    (hcut : cut crlfBytes w.msgBuffer.contents = none) (hchunk : IsChunk chunk)
    (hresult : a.result = .data src chunk errno) (hbuffer : a.bufferAlloc = true)
    (hline : a.lineAlloc = true) :
    (∃ w', tcpRecvMsg w a = (w', .local_) ∧ Pending w'.msgBuffer rest ∧ w'.trace = w.trace ∧
        w'.msgBuffer.contents = w.msgBuffer.contents ++ chunk) ∨
      ∃ m w', tcpRecvMsg w a = (w', lineResult m) ∧ Pending w'.msgBuffer rest ∧
        w'.trace = w.trace ++ linePrints m ∧
        frames crlfBytes (w.msgBuffer.contents ++ (chunk ++ rest)) =
          (m :: (frames crlfBytes (w'.msgBuffer.contents ++ rest)).1,
            (frames crlfBytes (w'.msgBuffer.contents ++ rest)).2) := by
  obtain ⟨b, happend, hpending, hcontents⟩ := h.append hcut hchunk.nulFree hchunk.length_le
  have hrcv : bRcv (.data src chunk errno) = chunk.length := Nat.min_eq_left hchunk.length_le
  have hint : cInt (chunk.length : Nat) = (chunk.length : Nat) :=
    cInt_eq_self (by omega) (by have := hchunk.length_le; simp only [bufferSize] at this; omega)
  have hpos : chunk.length > 0 := hchunk.nonempty
  rcases bufferGetMsg_cases hpending.wf with ⟨-, hget⟩ | ⟨m, b', hget, hcut', hwf, hsize⟩
  · refine Or.inl ⟨{ w with msgBuffer := b }, ?_, hpending, rfl, hcontents⟩
    simp only [tcpRecvMsg, hresult, hrcv, hint, hbuffer, hline, if_pos hpos, happend, hget]
  · obtain ⟨hpending', hframes⟩ := hpending.takeLine hcut' hwf hsize
    rw [hcontents, List.append_assoc] at hframes
    refine Or.inr ⟨m, ({ w with msgBuffer := b' } : World).printParsed (tcpProcessMsg (m ++ [0])),
      ?_, by simpa using hpending', by simp [linePrints], by simpa using hframes⟩
    simp only [tcpRecvMsg, hresult, hrcv, hint, hbuffer, hline, if_pos hpos, happend, hget]
    rfl

/-- Consuming chunks processes the lines of what was unprocessed. -/
theorem TcpConsumes.spec {w final : World} {chunks : List Bytes} {results : List MsgType}
    (h : TcpConsumes w chunks results final) (hchunks : ∀ chunk ∈ chunks, IsChunk chunk)
    (hpending : Pending w.msgBuffer chunks.flatten) :
    results.filter (· ≠ .local_) =
        (frames crlfBytes (unprocessed w.msgBuffer chunks)).1.map lineResult ∧
      final.msgBuffer.contents = (frames crlfBytes (unprocessed w.msgBuffer chunks)).2 ∧
      final.trace = w.trace ++
        (frames crlfBytes (unprocessed w.msgBuffer chunks)).1.flatMap linePrints := by
  have hkeep : ∀ (m : Bytes) (results : List MsgType),
      (lineResult m :: results).filter (· ≠ .local_) =
        lineResult m :: results.filter (· ≠ .local_) :=
    fun m results => List.filter_cons_of_pos (by simpa using lineResult_ne_local m)
  induction h with
  | @done w w' hcheck =>
      rcases tcpCheckPrevious_cases hpending with ⟨hcut, hnone⟩ | ⟨m, w₁, hsome, -⟩
      · obtain ⟨rfl, -⟩ : w = w' ∧ True := by
          rw [hnone] at hcheck; simpa using hcheck
        simp [unprocessed, frames_of_cut_none hcut]
      · rw [hsome] at hcheck; simp at hcheck
  | @previous w w' final chunks type results hcheck hrest ih =>
      rcases tcpCheckPrevious_cases hpending with ⟨-, hnone⟩ |
        ⟨m, w₁, hsome, -, hpending', htrace, hframes⟩
      · rw [hnone] at hcheck; simp at hcheck
      · obtain ⟨rfl, rfl⟩ : w₁ = w' ∧ lineResult m = type := by
          rw [hsome] at hcheck; simpa using hcheck
        obtain ⟨hresults, hcontents, hprints⟩ := ih hchunks hpending'
        simp only [unprocessed] at hresults hcontents hprints ⊢
        rw [hframes]
        refine ⟨?_, hcontents, ?_⟩
        · rw [hkeep, hresults]; rfl
        · simp [hprints, htrace]
  | @receive w w' final chunk chunks results a src errno hcheck hresult hbuffer hline hrest ih =>
      rcases tcpCheckPrevious_cases hpending with ⟨hcut, hnone⟩ | ⟨m, w₁, hsome, -⟩
      · obtain ⟨rfl, -⟩ : w = w' ∧ True := by
          rw [hnone] at hcheck; simpa using hcheck
        have hrestChunks : ∀ c ∈ chunks, IsChunk c :=
          fun c hc => hchunks c (List.mem_cons_of_mem chunk hc)
        rw [List.flatten_cons] at hpending
        rcases tcpRecvMsg_cases hpending hcut (hchunks chunk List.mem_cons_self) hresult hbuffer
            hline with ⟨w₁, hrecv, hpending', htrace, hgrown⟩ |
              ⟨m, w₁, hrecv, hpending', htrace, hframes⟩
        · rw [hrecv] at ih ⊢
          obtain ⟨hresults, hcontents, hprints⟩ := ih hrestChunks hpending'
          have hsame : unprocessed w.msgBuffer (chunk :: chunks) =
              unprocessed w₁.msgBuffer chunks := by
            simp [unprocessed, hgrown]
          rw [hsame]
          refine ⟨?_, hcontents, ?_⟩
          · simpa using hresults
          · rw [hprints, htrace]
        · rw [hrecv] at ih ⊢
          obtain ⟨hresults, hcontents, hprints⟩ := ih hrestChunks hpending'
          simp only [unprocessed, List.flatten_cons] at hresults hcontents hprints ⊢
          rw [hframes]
          refine ⟨?_, hcontents, ?_⟩
          · rw [hkeep, hresults]; rfl
          · simp [hprints, htrace]
      · rw [hsome] at hcheck; simp at hcheck

/-- Chunks can always be consumed. -/
theorem exists_tcpConsumes (chunks : List Bytes) (hchunks : ∀ chunk ∈ chunks, IsChunk chunk) :
    ∀ (n : Nat) (w : World), w.msgBuffer.contents.length = n →
      Pending w.msgBuffer chunks.flatten → ∃ results final, TcpConsumes w chunks results final := by
  induction chunks with
  | nil =>
      intro n
      induction n using Nat.strong_induction_on with
      | _ n ih =>
          intro w hn hpending
          rcases tcpCheckPrevious_cases hpending with ⟨-, hnone⟩ |
            ⟨m, w', hsome, hcut, hpending', -⟩
          · exact ⟨[], w, .done hnone⟩
          · have hlt := cut_length crlfBytes_ne_nil hcut
            obtain ⟨results, final, hrest⟩ := ih _ (hn ▸ hlt) w' rfl hpending'
            exact ⟨_, final, .previous hsome hrest⟩
  | cons chunk chunks ihChunks =>
      intro n
      induction n using Nat.strong_induction_on with
      | _ n ih =>
          intro w hn hpending
          rcases tcpCheckPrevious_cases hpending with ⟨hcut, hnone⟩ |
            ⟨m, w', hsome, hcut, hpending', -⟩
          · have hrestChunks : ∀ c ∈ chunks, IsChunk c :=
              fun c hc => hchunks c (List.mem_cons_of_mem chunk hc)
            let a : Arrival := { result := .data default chunk .eagain }
            rw [List.flatten_cons] at hpending
            have hnext : ∃ type w', tcpRecvMsg w a = (w', type) ∧
                Pending w'.msgBuffer chunks.flatten := by
              rcases tcpRecvMsg_cases hpending hcut (hchunks chunk List.mem_cons_self)
                (show a.result = _ from rfl) rfl rfl with ⟨w', hrecv, hp, -⟩ | ⟨m, w', hrecv, hp, -⟩
              · exact ⟨_, w', hrecv, hp⟩
              · exact ⟨_, w', hrecv, hp⟩
            obtain ⟨type, w', hrecv, hp⟩ := hnext
            obtain ⟨results, final, hrest⟩ := ihChunks hrestChunks _ w' rfl hp
            refine ⟨(tcpRecvMsg w a).2 :: results, final, .receive default .eagain hnone rfl rfl
              rfl ?_⟩
            rw [hrecv]
            exact hrest
          · have hlt := cut_length crlfBytes_ne_nil hcut
            obtain ⟨results, final, hrest⟩ := ih _ (hn ▸ hlt) w' rfl hpending'
            exact ⟨_, final, .previous hsome hrest⟩

/-- From an empty buffer, the results other than LOCAL are those of the lines of
the stream, in order, the buffer ends up with the unterminated tail, and exactly
the lines are printed. -/
theorem tcp_segmentation (w : World) (stream : Bytes) (chunks : List Bytes)
    (hempty : w.msgBuffer = .empty) (hstream : chunks.flatten = stream)
    (hchunks : ∀ chunk ∈ chunks, IsChunk chunk) (hfit : LinesFit stream) :
    (∃ results final, TcpConsumes w chunks results final) ∧
      ∀ results final, TcpConsumes w chunks results final →
        results.filter (· ≠ .local_) = (frames crlfBytes stream).1.map lineResult ∧
          final.msgBuffer.contents = (frames crlfBytes stream).2 ∧
          final.trace = w.trace ++ (frames crlfBytes stream).1.flatMap linePrints := by
  have hpending : Pending w.msgBuffer chunks.flatten := by
    rw [hempty, hstream]
    exact ⟨MsgBuffer.wellFormed_empty, by decide, by simpa using hfit⟩
  refine ⟨exists_tcpConsumes chunks hchunks _ w rfl hpending, fun results final h => ?_⟩
  have hspec := h.spec hchunks hpending
  have hall : unprocessed w.msgBuffer chunks = stream := by
    rw [unprocessed, hempty, hstream]; rfl
  rwa [hall] at hspec

/-- A line cut between its carriage return and its line feed. -/
theorem tcp_segmentation_inside_crlf :
    ∃ results final, TcpConsumes (World.init sampleClient 3)
        [ascii "MSG FROM a IS x\r", ascii "\nBYE"] results final ∧
      results.filter (· ≠ .local_) = [.msg] ∧ final.msgBuffer.contents = ascii "BYE" := by
  obtain ⟨⟨results, final, h⟩, hall⟩ := tcp_segmentation (World.init sampleClient 3)
    (ascii "MSG FROM a IS x\r\nBYE") [ascii "MSG FROM a IS x\r", ascii "\nBYE"] rfl (by decide)
    (by decide) (by decide)
  obtain ⟨hresults, hcontents, -⟩ := hall results final h
  exact ⟨results, final, h, hresults.trans (by decide), hcontents.trans (by decide)⟩

end IpkChat.Tcp

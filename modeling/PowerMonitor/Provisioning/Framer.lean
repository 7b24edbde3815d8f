import Mathlib.Data.List.Forall2
import Mathlib.Data.List.Induction
import PowerMonitor.Foundations.CMemory

/-!
# Lines of the serial port

`pm_provisioning_framer_push` cuts the bytes of the serial port into lines. A line that does not fit
is reported once and its bytes are dropped up to the next newline. The state of the framer after
some bytes is that of the unfinished segment, `Holding`, and `stream_framed` says what a stream
yields.
-/

namespace PowerMonitor.Provisioning

open CMemory

/-- `pm_com_framer_t`. -/
structure ComFramer where
  used : ℕ
  discardingOversizedLine : Bool
  deriving DecidableEq

/-- `pm_com_frame_result_t`. -/
inductive FrameResult
  | none
  | ready
  | oversized
  deriving DecidableEq, Repr

/-- What a call leaves, and the indices of the line it has written. -/
structure Pushed (capacity : ℕ) where
  result : FrameResult
  framer : ComFramer
  line : Bytes capacity
  written : List ℕ

variable {capacity : ℕ}

/-- `pm_provisioning_framer_push`, on a line of `capacity` bytes. -/
def framerPush (framer : ComFramer) (byte : UInt8) (line : Bytes capacity) : Pushed capacity :=
  if capacity < 2 then ⟨.none, framer, line, []⟩
  else if byte = 0x0a then
    if framer.discardingOversizedLine then
      ⟨.none, ⟨0, false⟩, .zero capacity, List.range capacity⟩
    else ⟨.ready, { framer with used := 0 }, line.set framer.used 0, [framer.used]⟩
  else if byte = 0x0d ∨ framer.discardingOversizedLine then ⟨.none, framer, line, []⟩
  else if framer.used + 1 < capacity then
    ⟨.none, { framer with used := framer.used + 1 }, line.set framer.used byte, [framer.used]⟩
  else ⟨.oversized, ⟨0, true⟩, .zero capacity, List.range capacity⟩

/-! ## Streams -/

/-- A result other than `none`, with the line as it is then. -/
inductive ComFrame (capacity : ℕ)
  | ready (line : Bytes capacity)
  | oversized

/-- The framer and its line after some bytes, the frames it has yielded, and all the indices
written. -/
structure Fed (capacity : ℕ) where
  framer : ComFramer
  line : Bytes capacity
  frames : List (ComFrame capacity)
  written : List ℕ

/-- One byte. The caller may change a line that is ready before it goes on, as `usb_task` does. -/
def Fed.push (handled : Bytes capacity → Bytes capacity) (s : Fed capacity) (byte : UInt8) :
    Fed capacity :=
  let p := framerPush s.framer byte s.line
  match p.result with
  | .none => ⟨p.framer, p.line, s.frames, s.written ++ p.written⟩
  | .ready => ⟨p.framer, handled p.line, s.frames ++ [.ready p.line], s.written ++ p.written⟩
  | .oversized => ⟨p.framer, p.line, s.frames ++ [.oversized], s.written ++ p.written⟩

/-- A stream, byte by byte, from a zero framer and any line. -/
def feed (handled : Bytes capacity → Bytes capacity) (line : Bytes capacity) (stream : List UInt8) :
    Fed capacity :=
  stream.foldl (Fed.push handled) ⟨⟨0, false⟩, line, [], []⟩

/-- The segments of a stream that a newline ends, and the bytes after the last newline. -/
def segments (stream : List UInt8) : List (List UInt8) × List UInt8 :=
  stream.foldl (fun s byte => if byte = 0x0a then (s.1 ++ [s.2], []) else (s.1, s.2 ++ [byte]))
    ([], [])

/-- A segment without its carriage returns. -/
def content (segment : List UInt8) : List UInt8 := segment.filter (· ≠ 0x0d)

/-- The content of the segment and its NUL fit in the line. -/
def Fits (capacity : ℕ) (segment : List UInt8) : Prop := (content segment).length ≤ capacity - 1

/-- The frame is that of the segment: its content with a NUL if it fits, and an overflow if not. -/
def ComFrame.IsFor (segment : List UInt8) : ComFrame capacity → Prop
  | .ready line => Fits capacity segment ∧ content segment ++ [0] <+: line.bytes
  | .oversized => ¬Fits capacity segment

/-- The state while a segment is unfinished: its content so far, or nothing at all if that does not
fit. -/
def Holding (segment : List UInt8) (framer : ComFramer) (line : Bytes capacity) : Prop :=
  Fits capacity segment ∧ framer = ⟨(content segment).length, false⟩ ∧
      content segment <+: line.bytes ∨
    ¬Fits capacity segment ∧ framer = ⟨0, true⟩ ∧ line = .zero capacity

section

variable {segment : List UInt8} {byte : UInt8} {framer : ComFramer} {line : Bytes capacity}

theorem content_append (byte : UInt8) :
    content (segment ++ [byte]) = content segment ++ if byte = 0x0d then [] else [byte] := by
  rw [content, content, List.filter_append]
  by_cases h : byte = 0x0d <;> simp [h]

theorem Fits.of_append (h : Fits capacity (segment ++ [byte])) : Fits capacity segment := by
  unfold Fits at h ⊢
  rw [content_append, List.length_append] at h
  omega

theorem holding_nil : Holding [] ⟨0, false⟩ line :=
  .inl ⟨Nat.zero_le _, rfl, List.nil_prefix⟩

/-- Storing a byte after those that are stored. -/
theorem prefix_set {stored : List UInt8} (h : stored <+: line.bytes)
    (hlength : stored.length < capacity) (v : UInt8) :
    stored ++ [v] <+: (line.set stored.length v).bytes := by
  obtain ⟨⟨⟩ | ⟨old, rest⟩, hrest⟩ := h
  · have hsize := line.size
    rw [← hrest, List.append_nil] at hsize
    omega
  · refine ⟨rest, ?_⟩
    change stored ++ [v] ++ rest = line.bytes.set stored.length v
    rw [← hrest]
    simp

/-- **A byte other than a newline** goes to the unfinished segment. It is reported when it is the
first one that does not fit. -/
theorem framerPush_byte (hcapacity : 2 ≤ capacity) (h : Holding segment framer line)
    (hbyte : byte ≠ 0x0a) :
    let p := framerPush framer byte line
    Holding (segment ++ [byte]) p.framer p.line ∧ (∀ i ∈ p.written, i < capacity) ∧
      (p.result = .none ∧ (Fits capacity segment ↔ Fits capacity (segment ++ [byte])) ∨
        p.result = .oversized ∧ Fits capacity segment ∧ ¬Fits capacity (segment ++ [byte])) := by
  have hlength := congrArg List.length (@content_append segment byte)
  rw [List.length_append] at hlength
  simp only [framerPush]
  rw [if_neg (Nat.not_lt.2 hcapacity), if_neg hbyte]
  rcases h with ⟨hfits, rfl, hprefix⟩ | ⟨hover, rfl, rfl⟩
  · by_cases hreturn : byte = 0x0d
    · rw [if_pos (.inl hreturn)]
      have heq : content (segment ++ [byte]) = content segment := by
        rw [content_append, if_pos hreturn, List.append_nil]
      have hiff : Fits capacity segment ↔ Fits capacity (segment ++ [byte]) := by
        rw [Fits, Fits, heq]
      exact ⟨.inl ⟨hiff.1 hfits, by rw [heq], by rwa [heq]⟩, by simp, .inl ⟨rfl, hiff⟩⟩
    rw [if_neg (by simpa using hreturn)]
    have heq : content (segment ++ [byte]) = content segment ++ [byte] := by
      rw [content_append, if_neg hreturn]
    rw [if_neg hreturn, List.length_singleton] at hlength
    by_cases hroom : (content segment).length + 1 < capacity
    · rw [if_pos hroom]
      have hfits' : Fits capacity (segment ++ [byte]) := by
        unfold Fits
        omega
      refine ⟨.inl ⟨hfits', by rw [hlength], ?_⟩, ?_, .inl ⟨rfl, iff_of_true hfits hfits'⟩⟩
      · rw [heq]
        exact prefix_set hprefix (by omega) byte
      · simp only [List.mem_singleton, forall_eq]
        omega
    · rw [if_neg hroom]
      have hover : ¬Fits capacity (segment ++ [byte]) := by
        unfold Fits
        omega
      exact ⟨.inr ⟨hover, rfl, rfl⟩, fun i hi => List.mem_range.1 hi, .inr ⟨rfl, hfits, hover⟩⟩
  · rw [if_pos (.inr rfl)]
    have hover' : ¬Fits capacity (segment ++ [byte]) := fun h => hover h.of_append
    exact ⟨.inr ⟨hover', rfl, rfl⟩, by simp, .inl ⟨rfl, iff_of_false hover hover'⟩⟩

/-- **A newline** ends the segment, which is ready if it fits. Otherwise nothing of it is left. -/
theorem framerPush_newline (hcapacity : 2 ≤ capacity) (h : Holding segment framer line) :
    let p := framerPush framer 0x0a line
    p.framer = ⟨0, false⟩ ∧ (∀ i ∈ p.written, i < capacity) ∧
      (p.result = .ready ∧ (ComFrame.ready p.line).IsFor segment ∨
        p.result = .none ∧ ¬Fits capacity segment ∧ p.line = .zero capacity) := by
  simp only [framerPush]
  rw [if_neg (Nat.not_lt.2 hcapacity)]
  rcases h with ⟨hfits, rfl, hprefix⟩ | ⟨hover, rfl, rfl⟩
  · have hlength : (content segment).length < capacity := by
      unfold Fits at hfits
      omega
    refine ⟨rfl, ?_, .inl ⟨rfl, hfits, prefix_set hprefix hlength 0⟩⟩
    simpa using hlength
  · exact ⟨rfl, fun i hi => List.mem_range.1 hi, .inr ⟨rfl, hover, rfl⟩⟩

end

/-! ## What a stream yields -/

/-- The frames an unfinished segment has yielded already. -/
def pending (capacity : ℕ) (segment : List UInt8) : List (ComFrame capacity) :=
  if (content segment).length ≤ capacity - 1 then [] else [.oversized]

/-- What holds after a stream, by its segments and its tail: every segment has had its frame, no
index beyond the line has been written, and of a segment that did not fit nothing is left. -/
structure Framed (done : List (List UInt8)) (tail : List UInt8) (s : Fed capacity) : Prop where
  holding : Holding tail s.framer s.line
  frames : ∃ frames, s.frames = frames ++ pending capacity tail ∧
    List.Forall₂ ComFrame.IsFor done frames
  written : ∀ i ∈ s.written, i < capacity
  cleared : tail = [] → ∀ segment ∈ done.getLast?, ¬Fits capacity segment →
    s.line = .zero capacity

section

variable {handled : Bytes capacity → Bytes capacity} {done : List (List UInt8)}
  {tail : List UInt8} {s : Fed capacity}

theorem pending_of_fits (h : Fits capacity tail) : pending capacity tail = [] := if_pos h

theorem pending_of_not_fits (h : ¬Fits capacity tail) : pending capacity tail = [.oversized] :=
  if_neg h

theorem forall₂_append_singleton {frames : List (ComFrame capacity)} {segment : List UInt8}
    {frame : ComFrame capacity} (h : List.Forall₂ ComFrame.IsFor done frames)
    (hframe : frame.IsFor segment) :
    List.Forall₂ ComFrame.IsFor (done ++ [segment]) (frames ++ [frame]) :=
  List.rel_append h (.cons hframe .nil)

theorem Framed.push_byte (hcapacity : 2 ≤ capacity) (h : Framed done tail s) {byte : UInt8}
    (hbyte : byte ≠ 0x0a) : Framed done (tail ++ [byte]) (s.push handled byte) := by
  obtain ⟨hholding, hwritten, hresult⟩ := framerPush_byte hcapacity h.holding hbyte
  obtain ⟨frames, hframes, hdone⟩ := h.frames
  have hwritten' : ∀ i ∈ s.written ++ (framerPush s.framer byte s.line).written, i < capacity := by
    intro i hi
    exact (List.mem_append.1 hi).elim (h.written i) (hwritten i)
  have hnil : tail ++ [byte] ≠ [] := by simp
  simp only [Fed.push]
  rcases hresult with ⟨hnone, hiff⟩ | ⟨hover, hfits, hfits'⟩
  · rw [hnone]
    refine ⟨hholding, ⟨frames, ?_, hdone⟩, hwritten', fun htail => absurd htail hnil⟩
    have hpending : pending capacity (tail ++ [byte]) = pending capacity tail :=
      if_congr hiff.symm rfl rfl
    rw [hpending]
    exact hframes
  · rw [hover]
    refine ⟨hholding, ⟨frames, ?_, hdone⟩, hwritten', fun htail => absurd htail hnil⟩
    rw [pending_of_fits hfits, List.append_nil] at hframes
    rw [pending_of_not_fits hfits']
    exact congrArg (· ++ [ComFrame.oversized]) hframes

theorem Framed.push_newline (hcapacity : 2 ≤ capacity) (h : Framed done tail s) :
    Framed (done ++ [tail]) [] (s.push handled 0x0a) := by
  obtain ⟨hframer, hwritten, hresult⟩ := framerPush_newline hcapacity h.holding
  obtain ⟨frames, hframes, hdone⟩ := h.frames
  have hwritten' : ∀ i ∈ s.written ++ (framerPush s.framer 0x0a s.line).written, i < capacity := by
    intro i hi
    exact (List.mem_append.1 hi).elim (h.written i) (hwritten i)
  have hlast : ∀ segment ∈ (done ++ [tail]).getLast?, segment = tail := by
    intro segment hsegment
    simpa [eq_comm] using hsegment
  have hnil : pending capacity ([] : List UInt8) = [] := rfl
  simp only [Fed.push]
  rcases hresult with ⟨hready, hfor⟩ | ⟨hnone, hover, hzero⟩
  · rw [hready]
    refine ⟨hframer ▸ holding_nil, ⟨frames ++ [.ready _], ?_, forall₂_append_singleton hdone hfor⟩,
      hwritten', fun _ segment hsegment hover => ?_⟩
    · rw [pending_of_fits hfor.1, List.append_nil] at hframes
      rw [hnil, List.append_nil]
      exact congrArg (· ++ [ComFrame.ready _]) hframes
    · rw [hlast segment hsegment] at hover
      exact absurd hfor.1 hover
  · rw [hnone]
    refine ⟨hframer ▸ holding_nil, ⟨frames ++ [.oversized], ?_,
      forall₂_append_singleton hdone (show ComFrame.oversized.IsFor tail from hover)⟩, hwritten',
      fun _ _ _ _ => hzero⟩
    rw [hnil, List.append_nil, hframes, pending_of_not_fits hover]

end

theorem segments_append (stream : List UInt8) (byte : UInt8) :
    segments (stream ++ [byte]) =
      if byte = 0x0a then ((segments stream).1 ++ [(segments stream).2], [])
      else ((segments stream).1, (segments stream).2 ++ [byte]) := by
  rw [segments, List.foldl_append]
  rfl

/-- After every byte of a stream. -/
theorem framed (hcapacity : 2 ≤ capacity) (handled : Bytes capacity → Bytes capacity)
    (line : Bytes capacity) (stream : List UInt8) :
    Framed (segments stream).1 (segments stream).2 (feed handled line stream) := by
  induction stream using List.reverseRecOn with
  | nil => exact ⟨holding_nil, ⟨[], rfl, .nil⟩, by simp [feed], by simp [segments]⟩
  | append_singleton stream byte ih =>
    have hfeed : feed handled line (stream ++ [byte]) =
        (feed handled line stream).push handled byte := by
      rw [feed, List.foldl_append]
      rfl
    rw [hfeed, segments_append]
    by_cases hbyte : byte = 0x0a
    · subst hbyte
      exact ih.push_newline hcapacity
    · rw [if_neg hbyte]
      exact ih.push_byte hcapacity hbyte

/-- The frames do not depend on those before them. -/
theorem frames_foldl (handled : Bytes capacity → Bytes capacity) (stream : List UInt8)
    (s : Fed capacity) : (stream.foldl (Fed.push handled) s).frames =
      s.frames ++ (stream.foldl (Fed.push handled) ⟨s.framer, s.line, [], []⟩).frames := by
  induction stream generalizing s with
  | nil => simp
  | cons byte stream ih =>
    rw [List.foldl_cons, List.foldl_cons, ih, ih (Fed.push handled ⟨s.framer, s.line, [], []⟩ byte)]
    simp only [Fed.push]
    split <;> simp

/-- **What a stream yields.** On a line of at least two bytes, every segment of a stream yields the
frame that is its own, the unfinished one at most a report that it does not fit, and no index beyond
the line is ever written. After a segment that does not fit, the frames are those of the bytes after
it alone, from a zeroed line. -/
theorem stream_framed (hcapacity : 2 ≤ capacity) (handled : Bytes capacity → Bytes capacity)
    (line : Bytes capacity) (stream : List UInt8) :
    Framed (segments stream).1 (segments stream).2 (feed handled line stream) ∧
      ∀ segment ∈ (segments stream).1.getLast?, (segments stream).2 = [] →
        ¬Fits capacity segment → ∀ rest, (feed handled line (stream ++ rest)).frames =
          (feed handled line stream).frames ++ (feed handled (.zero capacity) rest).frames := by
  have hframed := framed hcapacity handled line stream
  refine ⟨hframed, fun segment hsegment htail hover rest => ?_⟩
  have hline := hframed.cleared htail segment hsegment hover
  have hframer : (feed handled line stream).framer = ⟨0, false⟩ := by
    have hholding := hframed.holding
    rw [htail] at hholding
    rcases hholding with ⟨-, h, -⟩ | ⟨h, -, -⟩
    · exact h
    · exact absurd (Nat.zero_le _) h
  have happend : feed handled line (stream ++ rest) =
      rest.foldl (Fed.push handled) (feed handled line stream) := List.foldl_append
  rw [happend, frames_foldl, hline, hframer]
  rfl

/-- A line that does not fit between two that do, in seven bytes. -/
theorem lines_framed :
    let stream := [0x6f, 0x0d, 0x6b, 0x0a] ++ List.replicate 9 0x78 ++ [0x0a, 0x0a, 0x79]
    segments stream = ([[0x6f, 0x0d, 0x6b], List.replicate 9 0x78, []], [0x79]) ∧
      Framed (segments stream).1 (segments stream).2 (feed (fun _ => .zero 7) (.zero 7) stream) :=
  ⟨by decide, (stream_framed (by decide) (fun _ => .zero 7) (.zero 7) _).1⟩

end PowerMonitor.Provisioning

import WallUnit.Firmware.Ld2410c
import WallUnit.Foundations.Bytes

/-!
Owns what the parse task of `ld2410c.c` recognises: the frames of the byte stream, where
in the stream each byte it stores was read, and how soon after garbage it is back at the
start of a frame. All of it holds however the stream is delivered, timeouts between the
reads included.

Does not own the task, which `Ld2410c` embeds.
-/

namespace WallUnit.Firmware.Ld2410c

open WallUnit.Foundations

/-! ### Where each byte was read -/

/-- The bytes the scan loop stores, each with the place in `buf` of the frame it is read
from. -/
def scanPlaces (buf : List UInt8) (head : Nat) : Nat → Nat → List (Nat × UInt8)
  | 0, _ => []
  | fuel + 1, pos =>
      let pass := scanPass buf head pos
      match pass.next with
      | none => []
      | some next => pass.stored.toList.map (Prod.mk pos) ++ scanPlaces buf head fuel next

/-- A run of the task that also keeps where in the stream its buffer starts, and with
each byte stored the place in the stream of the frame it was read from. -/
structure Trace where
  run : Run
  origin : Nat
  places : List (Nat × UInt8)
deriving DecidableEq, Repr

/-- The origin moves when the waiting bytes are discarded and when they are moved to the
front of the buffer. -/
def traceStep (trace : Trace) (received : List UInt8) : Option Trace :=
  (step trace.run received).map fun next =>
    let task := awaitRead trace.run.task
    let origin := trace.origin + (trace.run.task.head - task.head)
    if received = [] then ⟨next, origin, trace.places⟩
    else
      let filled := receive received task
      ⟨next, origin + (parseReceived filled).2.pos, trace.places ++
        (scanPlaces filled.buf filled.head (filled.head + 1) 0).map
          fun entry => (origin + entry.1, entry.2)⟩

def traced (stack : Vector UInt8 uartBufSize) : Machine Trace (List UInt8) where
  init := ⟨(system stack).init, 0, []⟩
  step := traceStep

/-- Tracing does not disturb the task. -/
theorem run_traced (stack : Vector UInt8 uartBufSize) (reads : List (List UInt8)) :
    ((traced stack).run reads).map Trace.run = (system stack).run reads := by
  apply Machine.runFrom_projected
  intro trace received
  change Option.map Trace.run (traceStep trace received) = step trace.run received
  unfold traceStep
  cases step trace.run received with
  | none => rfl
  | some next =>
      dsimp only [Option.map_some]
      split_ifs <;> rfl

/-- With a pass for every waiting byte, the places are where the rule yields. -/
theorem scanPlaces_located {buf : List UInt8} {head : Nat} (room : head ≤ uartBufSize)
    (filled : head ≤ buf.length) (fuel pos : Nat) (enough : head < fuel + pos) :
    scanPlaces buf head fuel pos = frames.located ((buf.take head).drop pos) pos := by
  induction fuel generalizing pos with
  | zero =>
      have all : (buf.take head).drop pos = [] := by
        rw [List.drop_eq_nil_iff, List.length_take]
        omega
      rw [all, frames.located_of_none rfl]
      rfl
  | succ fuel inductionHypothesis =>
      have rule : frames.next ((buf.take head).drop pos) = _ := frameRule_window room filled
      have bounds := (scanPass_bounds buf head pos).2
      simp only [scanPlaces]
      cases decided : (scanPass buf head pos).next with
      | none =>
          rw [decided] at rule
          exact (frames.located_of_none rule pos).symm
      | some next =>
          obtain ⟨later, inside⟩ := bounds next decided
          rw [decided] at rule
          rw [frames.located_of_some rule, List.drop_drop, Nat.add_sub_of_le (by omega),
            ← inductionHypothesis next (by omega)]

theorem parseReceived_pos {task : ParseTask} (fits : task.Fits) :
    (parseReceived task).2.pos ≤ task.head ∧
      (parseReceived task).1.unconsumed = task.unconsumed.drop (parseReceived task).2.pos := by
  have filled : task.head ≤ task.buf.length := fits.size ▸ fits.head_le
  have ordered := (scanLoop_scan fits.head_le filled (task.head + 1) 0 (Nat.zero_le _)
    (by omega)).2.2
  exact ⟨ordered, unconsumed_shift ⟨fits.size, fits.head_le⟩ ordered⟩

theorem length_unconsumed {task : ParseTask} (fits : task.Fits) :
    task.unconsumed.length = task.head := by
  have size := fits.size
  have head := fits.head_le
  rw [ParseTask.unconsumed, List.length_take]
  omega

theorem head_awaitRead_le (task : ParseTask) : (awaitRead task).head ≤ task.head := by
  unfold awaitRead
  split_ifs
  · exact Nat.zero_le _
  · exact Nat.le_refl _

/-- The origin moves over the discarded bytes. -/
theorem unconsumed_awaitRead {stream : List UInt8} {task : ParseTask} {origin : Nat}
    (fits : task.Fits) (waiting : task.unconsumed = stream.drop origin) :
    (awaitRead task).unconsumed =
      stream.drop (origin + (task.head - (awaitRead task).head)) := by
  have length := length_unconsumed fits
  unfold awaitRead
  split_ifs with discarded
  · dsimp only
    rw [Nat.sub_zero, ← List.drop_drop, ← waiting, ← length, List.drop_length]
    rfl
  · rwa [Nat.sub_self, Nat.add_zero]

/-- What is behind the discarded bytes, the scanner finds at the same places. -/
theorem located_awaitRead {task : ParseTask} (fits : task.Fits)
    (waits : frames.next task.unconsumed = none) {received : List UInt8}
    (nonempty : received ≠ []) (origin : Nat) :
    frames.located (task.unconsumed ++ received) origin =
      frames.located ((awaitRead task).unconsumed ++ received)
        (origin + (task.head - (awaitRead task).head)) := by
  have length := length_unconsumed fits
  have head := fits.head_le
  unfold awaitRead
  split_ifs with discarded
  · have full : task.unconsumed.length = uartBufSize := by omega
    have found : frames.next (task.unconsumed ++ received) = some (uartBufSize, []) :=
      frameRule_full full waits nonempty
    have all : task.head - 0 = uartBufSize := by omega
    rw [frames.located_of_some found, ← full, List.drop_left, all, full]
    simp [ParseTask.unconsumed]
  · rw [Nat.sub_self, Nat.add_zero]

theorem waits_awaitRead {task : ParseTask} (waits : frames.next task.unconsumed = none) :
    frames.next (awaitRead task).unconsumed = none := by
  unfold awaitRead
  split_ifs
  · rfl
  · exact waits

/-- The buffer holds the stream from the origin on, and the places are where the scanner
yields a value. -/
structure Locates (stream : List UInt8) (trace : Trace) : Prop where
  fits : trace.run.task.Fits
  waits : frames.next trace.run.task.unconsumed = none
  counted : trace.origin + trace.run.task.head = stream.length
  waiting : trace.run.task.unconsumed = stream.drop trace.origin
  stored : trace.run.stored = trace.places.map Prod.snd
  places : trace.places = frames.located stream 0
  continues : ∀ more, more ≠ [] → frames.located (stream ++ more) 0 =
    trace.places ++ frames.located (trace.run.task.unconsumed ++ more) trace.origin

theorem locates_start (stack : Vector UInt8 uartBufSize) : Locates [] (traced stack).init where
  fits := ⟨stack.length_toList, Nat.zero_le _⟩
  waits := rfl
  counted := rfl
  waiting := rfl
  stored := rfl
  places := (frames.located_of_none rfl 0).symm
  continues := fun _ _ => rfl

theorem locates_timeout {stream : List UInt8} {trace : Trace} (locates : Locates stream trace) :
    Locates stream
      ⟨{ trace.run with task := awaitRead trace.run.task },
        trace.origin + (trace.run.task.head - (awaitRead trace.run.task).head),
        trace.places⟩ where
  fits := awaitRead_fits locates.fits
  waits := waits_awaitRead locates.waits
  counted := by
    have counted := locates.counted
    have kept := head_awaitRead_le trace.run.task
    dsimp only
    omega
  waiting := unconsumed_awaitRead locates.fits locates.waiting
  stored := locates.stored
  places := locates.places
  continues := by
    intro more nonempty
    rw [locates.continues more nonempty, located_awaitRead locates.fits locates.waits nonempty]

theorem locates_received {stream received : List UInt8} {trace : Trace}
    (locates : Locates stream trace) (nonempty : received ≠ [])
    (asked : received.length ≤ avail (awaitRead trace.run.task)) :
    let task := awaitRead trace.run.task
    let origin := trace.origin + (trace.run.task.head - task.head)
    let filled := receive received task
    Locates (stream ++ received)
      ⟨⟨(parseReceived filled).1, trace.run.visits ++ (parseReceived filled).2.visits,
          trace.run.stored ++ (parseReceived filled).2.stored⟩,
        origin + (parseReceived filled).2.pos,
        trace.places ++ (scanPlaces filled.buf filled.head (filled.head + 1) 0).map
          fun entry => (origin + entry.1, entry.2)⟩ := by
  intro task origin filled
  have ready := awaitRead_fits locates.fits
  have read : filled.Fits := receive_fits ready asked
  have holds : filled.unconsumed = task.unconsumed ++ received := unconsumed_receive ready
  have room : filled.head ≤ filled.buf.length := read.size ▸ read.head_le
  obtain ⟨stored, rest, fits⟩ := parseReceived_scan read
  obtain ⟨ordered, moved⟩ := parseReceived_pos read
  have length := length_unconsumed read
  have found : scanPlaces filled.buf filled.head (filled.head + 1) 0 =
      frames.located (task.unconsumed ++ received) 0 := by
    rw [scanPlaces_located read.head_le room _ 0 (by omega), List.drop_zero, ← holds]
    rfl
  have consumed : (task.unconsumed ++ received).length -
      (frames.scan (task.unconsumed ++ received)).2.length = (parseReceived filled).2.pos := by
    rw [← holds, ← rest, moved, List.length_drop, length]
    omega
  have continues : ∀ more, frames.located (stream ++ (received ++ more)) 0 =
      trace.places ++ frames.located (task.unconsumed ++ (received ++ more)) origin := by
    intro more
    have longer : received ++ more ≠ [] := List.append_ne_nil_of_left_ne_nil nonempty more
    rw [locates.continues _ longer, located_awaitRead locates.fits locates.waits longer]
  have shifted := frames.located_shift (task.unconsumed ++ received) origin 0
  rw [Nat.add_zero] at shifted
  have inside : origin ≤ stream.length := by
    have counted := locates.counted
    omega
  constructor
  · exact fits
  · rw [rest]
    exact frames.next_scan_rest _
  · have counted := locates.counted
    have kept : task.head ≤ trace.run.task.head := head_awaitRead_le _
    have grown : filled.head = task.head + received.length := rfl
    have left : (parseReceived filled).1.head = filled.head - (parseReceived filled).2.pos := rfl
    dsimp only
    rw [left, List.length_append]
    omega
  · have ahead : task.unconsumed = stream.drop origin :=
      unconsumed_awaitRead locates.fits locates.waiting
    rw [moved, holds, ahead, ← List.drop_append_of_le_length inside, List.drop_drop]
  · rw [stored, found, List.map_append, ← locates.stored, ← shifted, frames.located_values, holds]
  · have now := continues []
    rw [List.append_nil] at now
    rw [now, found, ← shifted]
  · intro more _
    rw [List.append_assoc, continues, ← List.append_assoc task.unconsumed,
      frames.located_append, found, ← shifted, consumed, ← List.append_assoc]
    dsimp only
    rw [rest, holds]

theorem locates_step {stream received : List UInt8} {trace next : Trace}
    (locates : Locates stream trace) (stepped : traceStep trace received = some next) :
    Locates (stream ++ received) next := by
  obtain ⟨after, ran, rfl⟩ := Option.map_eq_some_iff.mp stepped
  unfold step at ran
  dsimp only at ran ⊢
  by_cases overlong : avail (awaitRead trace.run.task) < received.length
  · rw [if_pos overlong] at ran
    contradiction
  rw [if_neg overlong] at ran
  by_cases timeout : received = []
  · rw [if_pos timeout] at ran ⊢
    obtain rfl := Option.some.inj ran
    rw [timeout, List.append_nil]
    exact locates_timeout locates
  · rw [if_neg timeout] at ran ⊢
    obtain rfl := Option.some.inj ran
    exact locates_received locates timeout (Nat.le_of_not_lt overlong)

theorem locates_run (stack : Vector UInt8 uartBufSize) {reads : List (List UInt8)}
    {final : Trace} (ran : (traced stack).run reads = some final) : Locates reads.flatten final :=
  Machine.history_invariant (fun past trace => Locates past.flatten trace)
    (fun past trace received next locates _ stepped => by
      rw [List.flatten_append, List.flatten_singleton]
      exact locates_step locates stepped)
    [] (locates_start stack) ((traced stack).along_true _ reads) ran

/-- However the stream arrives, the task has stored what the scanner finds in it. -/
theorem stored_of_run (stack : Vector UInt8 uartBufSize) {reads : List (List UInt8)} {final : Run}
    (ran : (system stack).run reads = some final) :
    final.stored = (frames.scan reads.flatten).1 := by
  rw [← run_traced] at ran
  obtain ⟨trace, observed, rfl⟩ := Option.map_eq_some_iff.mp ran
  have locates := locates_run stack observed
  rw [locates.stored, locates.places, frames.located_values]

/-! ### The grammar -/

/-- A frame that carries data starts at `pos`: the header, and the footer right behind
as many bytes as the length field says. -/
structure FrameAt (stream : List UInt8) (pos : Nat) : Prop where
  header : bytesAt stream pos 4 = header
  nonempty : 1 ≤ dataLen stream pos
  footer : bytesAt stream (pos + 8 + dataLen stream pos) 4 = footer

/-- A frame without data starts at `pos`. -/
structure EmptyFrameAt (stream : List UInt8) (pos : Nat) : Prop where
  header : bytesAt stream pos 4 = header
  empty : dataLen stream pos = 0
  footer : bytesAt stream (pos + 8) 4 = footer

instance (stream : List UInt8) (pos : Nat) : Decidable (FrameAt stream pos) :=
  decidable_of_iff
    (bytesAt stream pos 4 = header ∧ 1 ≤ dataLen stream pos ∧
      bytesAt stream (pos + 8 + dataLen stream pos) 4 = footer)
    ⟨fun ⟨head, nonempty, foot⟩ => ⟨head, nonempty, foot⟩,
      fun frame => ⟨frame.header, frame.nonempty, frame.footer⟩⟩

section

variable {stream : List UInt8} {pos : Nat}

/-- The bytes compared lie in the stream. -/
theorem length_of_bytesAt {bytes : List UInt8} {count : Nat} (positive : 0 < count)
    (found : bytesAt stream pos count = bytes) (length : bytes.length = count) :
    pos + count ≤ stream.length := by
  have size := congrArg List.length found
  simp only [bytesAt, List.length_take, List.length_drop] at size
  omega

/-- What the parser yields at a place, it takes from a frame there, with data or
without. -/
theorem frame_of_frameRule {count : Nat} {values : List UInt8} {value : UInt8}
    (found : frameRule (stream.drop pos) = some (count, values)) (member : value ∈ values) :
    (FrameAt stream pos ∨ EmptyFrameAt stream pos) ∧ value = byteAt stream (pos + 8) := by
  unfold frameRule at found
  split_ifs at found with short unmarked unmeasured impossible waiting incomplete closed
  all_goals cases found
  any_goals contradiction
  rw [bytesAt_drop, Nat.add_zero] at unmarked
  have marked := not_not.mp unmarked
  have ends : pos + (frameLen (stream.drop pos) 0 - 4) = pos + 8 + dataLen stream pos := by
    rw [frameLen_drop]
    unfold frameLen
    omega
  rw [bytesAt_drop, ends] at closed
  rw [byteAt_drop] at member
  refine ⟨?_, List.mem_singleton.mp member⟩
  rcases Nat.eq_zero_or_pos (dataLen stream pos) with empty | nonempty
  · rw [empty] at closed
    exact Or.inr ⟨marked, empty, closed⟩
  · exact Or.inl ⟨marked, nonempty, closed⟩

/-- The byte the parser takes for the target state of an empty frame is the first one
of its footer. -/
theorem EmptyFrameAt.target (frame : EmptyFrameAt stream pos) :
    byteAt stream (pos + 8) = 0xF8 := by
  have first : byteAt (bytesAt stream (pos + 8) 4) 0 = 0xF8 := by
    rw [frame.footer]
    rfl
  simpa [byteAt, bytesAt, List.getD_eq_getElem?_getD] using first

theorem EmptyFrameAt.frameRule (frame : EmptyFrameAt stream pos) :
    frameRule (stream.drop pos) = some (12, [byteAt stream (pos + 8)]) := by
  have inside : pos + 8 + 4 ≤ stream.length :=
    length_of_bytesAt (by decide) frame.footer rfl
  have length : (stream.drop pos).length = stream.length - pos := List.length_drop
  have size : frameLen (stream.drop pos) 0 = 12 := by
    rw [frameLen_drop, frameLen, frame.empty]
  have room : ¬ uartBufSize < 12 := by decide
  unfold Ld2410c.frameRule
  rw [if_neg (by omega), bytesAt_drop, Nat.add_zero, if_neg (not_not.mpr frame.header),
    if_neg (by omega), size, if_neg room, if_neg (by omega), bytesAt_drop, if_pos frame.footer,
    byteAt_drop]

end

/-- Each value stored is read eight bytes behind the place of the stream traced for it,
and these places are all starts of frames with data exactly when the parser comes to no
frame without data. -/
theorem stored_frames_iff (stack : Vector UInt8 uartBufSize) {reads : List (List UInt8)}
    {final : Run} (ran : (system stack).run reads = some final) :
    ∃ trace, (traced stack).run reads = some trace ∧ trace.run = final ∧
      final.stored = trace.places.map Prod.snd ∧
      (∀ entry ∈ trace.places, entry.2 = byteAt reads.flatten (entry.1 + 8)) ∧
      ((∀ entry ∈ trace.places, FrameAt reads.flatten entry.1) ↔
        ∀ pos, frames.Reaches reads.flatten pos → ¬ EmptyFrameAt reads.flatten pos) := by
  rw [← run_traced] at ran
  obtain ⟨trace, observed, rfl⟩ := Option.map_eq_some_iff.mp ran
  have locates := locates_run stack observed
  have places := locates.places
  have bytes : ∀ entry ∈ trace.places,
      (FrameAt reads.flatten entry.1 ∨ EmptyFrameAt reads.flatten entry.1) ∧
        entry.2 = byteAt reads.flatten (entry.1 + 8) := by
    intro entry member
    rw [places, frames.mem_located] at member
    obtain ⟨count, values, -, found, inside⟩ := member
    exact frame_of_frameRule found inside
  refine ⟨trace, observed, rfl, locates.stored, fun entry member => (bytes entry member).2, ?_, ?_⟩
  · intro genuine pos reached empty
    have member : (pos, byteAt reads.flatten (pos + 8)) ∈ trace.places := by
      rw [places, frames.mem_located]
      exact ⟨12, _, reached, empty.frameRule, List.mem_singleton_self _⟩
    have nonempty := (genuine _ member).nonempty
    rw [empty.empty] at nonempty
    contradiction
  · intro reachesNone entry member
    obtain ⟨frame | empty, -⟩ := bytes entry member
    · exact frame
    · rw [places, frames.mem_located] at member
      obtain ⟨count, values, reached, -⟩ := member
      exact absurd empty (reachesNone _ reached)

/-- A frame without data. -/
def emptyFrame : List UInt8 := header ++ [0x02, 0xAA, 0x00, 0x00] ++ footer

/-- The sample stream holds no frame without data. -/
theorem stored_frames_iff_sample :
    ∃ trace, (traced (Vector.replicate _ 0)).run [sampleStream] = some trace ∧
      trace.places = [(1, 0x02)] ∧ ∀ entry ∈ trace.places, FrameAt sampleStream entry.1 := by
  obtain ⟨final, ran⟩ : ∃ final, (system (Vector.replicate _ 0)).run [sampleStream] = some final :=
    Option.isSome_iff_exists.mp (by decide +kernel)
  obtain ⟨trace, observed, -, -, -, genuine⟩ := stored_frames_iff _ ran
  refine ⟨trace, observed, ?_, genuine.mpr ?_⟩
  · have all : ((traced (Vector.replicate _ 0)).run [sampleStream]).map Trace.places =
        some [(1, 0x02)] := by
      decide +kernel
    rw [observed, Option.map_some] at all
    exact Option.some.inj all
  · intro pos _ empty
    have inside : pos + 4 ≤ sampleStream.length :=
      length_of_bytesAt (by decide) empty.header rfl
    have length : sampleStream.length = 16 := by decide
    have none : ∀ pos < 13, bytesAt sampleStream pos 4 = header →
        dataLen sampleStream pos ≠ 0 := by
      decide +kernel
    exact none pos (by omega) empty.header empty.empty

theorem stored_frames_not_of_emptyFrame :
    ¬ ∀ (stack : Vector UInt8 uartBufSize) (reads : List (List UInt8)) (final : Run),
      (system stack).run reads = some final → ∀ value ∈ final.stored,
        ∃ pos, FrameAt reads.flatten pos ∧ value = byteAt reads.flatten (pos + 8) := by
  intro genuine
  obtain ⟨final, ran⟩ : ∃ final, (system (Vector.replicate _ 0)).run [emptyFrame] = some final :=
    Option.isSome_iff_exists.mp (by decide +kernel)
  have stored : (0xF8 : UInt8) ∈ final.stored := by
    have all : ((system (Vector.replicate _ 0)).run [emptyFrame]).map Run.stored = some [0xF8] := by
      decide +kernel
    rw [ran, Option.map_some] at all
    rw [Option.some.inj all]
    exact List.mem_cons_self
  obtain ⟨pos, frame, -⟩ := genuine _ _ _ ran _ stored
  rw [List.flatten_singleton] at frame
  have inside := length_of_bytesAt (by decide) frame.footer rfl
  have length : emptyFrame.length = 12 := by decide
  have nonempty := frame.nonempty
  omega

/-! ### Back in step after garbage -/

/-- A well-formed frame: what stands before the length, and its data. -/
structure Frame where
  kind : UInt8
  head : UInt8
  data : List UInt8
  nonempty : 1 ≤ data.length
  short : data.length ≤ 244
deriving DecidableEq, Repr

/-- The frame as the radar sends it. -/
def Frame.bytes (frame : Frame) : List UInt8 :=
  header ++ [frame.kind, frame.head, UInt8.ofNat (frame.data.length % 256),
    UInt8.ofNat (frame.data.length / 256)] ++ frame.data ++ footer

/-- Its first data byte. -/
def Frame.target (frame : Frame) : UInt8 := frame.data.getD 0 0

def wire (sent : List Frame) : List UInt8 := sent.flatMap Frame.bytes

/-- The header pattern stands in the frames only where one of them starts. -/
def HeaderOnlyAtStarts (sent : List Frame) : Prop :=
  ∀ pos, bytesAt (wire sent) pos 4 = header →
    ∃ index < sent.length, pos = (wire (sent.take index)).length

theorem Frame.length_bytes (frame : Frame) : frame.bytes.length = 12 + frame.data.length := by
  simp only [Frame.bytes, header, footer, List.length_append, List.length_cons, List.length_nil]
  omega

/-- The parser reads a frame back, whatever follows it. -/
theorem Frame.frameRule_bytes (frame : Frame) (rest : List UInt8) :
    frameRule (frame.bytes ++ rest) = some (frame.bytes.length, [frame.target]) := by
  have nonempty := frame.nonempty
  have short := frame.short
  have length := frame.length_bytes
  have room : uartBufSize = 256 := rfl
  obtain ⟨first, others, data⟩ := List.exists_cons_of_length_pos nonempty
  have within : frame.bytes <+: frame.bytes ++ rest := List.prefix_append _ _
  have grown := within.length_le
  have measured : frameLen frame.bytes 0 = frame.bytes.length := by
    have low : frame.data.length % 256 = frame.data.length := Nat.mod_eq_of_lt (by omega)
    have high : frame.data.length / 256 = 0 := Nat.div_eq_of_lt (by omega)
    have claimed : dataLen frame.bytes 0 = frame.data.length := by
      simp [dataLen, byteAt, Frame.bytes, header, low, high]
    rw [length, frameLen, claimed]
    omega
  have marked : bytesAt frame.bytes 0 4 = header := rfl
  have closed : bytesAt frame.bytes (frame.bytes.length - 4) 4 = footer := by
    have before : frame.bytes.length - 4 = (header ++ [frame.kind, frame.head,
        UInt8.ofNat (frame.data.length % 256), UInt8.ofNat (frame.data.length / 256)] ++
        frame.data).length := by
      rw [length]
      simp only [header, List.length_append, List.length_cons, List.length_nil]
      omega
    rw [before, bytesAt, Frame.bytes, List.drop_left]
    rfl
  have target : byteAt frame.bytes 8 = frame.target := by
    simp [byteAt, Frame.bytes, Frame.target, header, data]
  unfold frameRule
  rw [if_neg (by omega), bytesAt_of_prefix within (by omega), if_neg (not_not.mpr marked),
    if_neg (by omega), frameLen_of_prefix within (by omega), measured, if_neg (by omega),
    if_neg (by omega), bytesAt_of_prefix within (by omega), if_pos closed,
    byteAt_of_append within (by omega), target]

/-- In step with the frames, the parser stores the first data byte of each. -/
theorem scan_wire (sent : List Frame) : frames.scan (wire sent) = (sent.map Frame.target, []) := by
  induction sent with
  | nil => exact frames.scan_of_none rfl
  | cons frame rest inductionHypothesis =>
      have found : frames.next (frame.bytes ++ wire rest) = _ := frame.frameRule_bytes (wire rest)
      rw [wire, List.flatMap_cons, ← wire, frames.scan_of_some found, List.drop_left,
        inductionHypothesis, List.map_cons, List.singleton_append]

theorem wire_drop (sent : List Frame) (index : Nat) :
    (wire sent).drop (wire (sent.take index)).length = wire (sent.drop index) := by
  have cut : wire sent = wire (sent.take index) ++ wire (sent.drop index) := by
    rw [wire, wire, wire, ← List.flatMap_append, List.take_append_drop]
  rw [cut, List.drop_left]

/-- With more than a full buffer ahead the parser never waits, and never passes more
than one buffer at once. -/
theorem frameRule_of_long {input : List UInt8} (long : uartBufSize < input.length) :
    ∃ count values, frameRule input = some (count, values) ∧ count ≤ uartBufSize := by
  have size : uartBufSize = 256 := rfl
  unfold frameRule
  rw [if_neg (by omega)]
  by_cases marked : bytesAt input 0 4 ≠ header
  · rw [if_pos marked]
    exact ⟨1, [], rfl, by omega⟩
  rw [if_neg marked, if_neg (by omega)]
  by_cases impossible : uartBufSize < frameLen input 0
  · rw [if_pos impossible, if_neg (by omega)]
    exact ⟨uartBufSize, [], rfl, Nat.le_refl _⟩
  rw [if_neg impossible, if_neg (by omega)]
  split_ifs
  · exact ⟨frameLen input 0, _, rfl, by omega⟩
  · exact ⟨frameLen input 0, _, rfl, by omega⟩

theorem wire_append (first second : List Frame) :
    wire (first ++ second) = wire first ++ wire second := List.flatMap_append

/-- The start of a frame does not lie behind the start of a later one. -/
theorem length_take_wire (sent : List Frame) {early late : Nat} (ordered : early ≤ late) :
    (wire (sent.take early)).length ≤ (wire (sent.take late)).length := by
  have cut := List.take_append_drop early (sent.take late)
  rw [List.take_take, Nat.min_eq_left ordered] at cut
  rw [← cut, wire_append, List.length_append]
  exact Nat.le_add_right _ _

/-- Between the garbage and the start of a frame the parser stops at every place that
is not inside a frame it reads. -/
theorem frameRule_in_frames {sent : List Frame} (marked : HeaderOnlyAtStarts sent) {index : Nat}
    (inside : index < sent.length) {pos : Nat} (before : pos < (wire (sent.take index)).length) :
    ∃ count values, frameRule ((wire sent).drop pos) = some (count, values) ∧
      pos + count ≤ (wire (sent.take index)).length := by
  have whole : (wire (sent.take index)).length + 12 ≤ (wire sent).length := by
    have cut := congrArg List.length (wire_drop sent index)
    rw [List.length_drop, List.drop_eq_getElem_cons inside, wire, wire, wire, List.flatMap_cons,
      List.length_append, Frame.length_bytes] at cut
    unfold wire
    omega
  by_cases starts : bytesAt (wire sent) pos 4 = header
  · obtain ⟨early, earlyInside, rfl⟩ := marked pos starts
    have earlier : early < index := by
      by_contra later
      have ordered := length_take_wire sent (Nat.le_of_not_lt later)
      omega
    have following : (wire (sent.take (early + 1))).length =
        (wire (sent.take early)).length + sent[early].bytes.length := by
      rw [List.take_succ_eq_append_getElem earlyInside, wire_append, List.length_append]
      simp [wire]
    refine ⟨sent[early].bytes.length, [sent[early].target], ?_, ?_⟩
    · rw [wire_drop, List.drop_eq_getElem_cons earlyInside, wire, List.flatMap_cons]
      exact sent[early].frameRule_bytes _
    · rw [← following]
      exact length_take_wire sent earlier
  · refine ⟨1, [], ?_, before⟩
    have length : ((wire sent).drop pos).length = (wire sent).length - pos := List.length_drop
    unfold frameRule
    rw [if_neg (by omega), bytesAt_drop, Nat.add_zero, if_pos starts]

/-- Whatever garbage comes first and however the bytes are delivered, every frame that
starts at least 256 bytes behind the garbage is stored, in order. -/
theorem resynchronises (stack : Vector UInt8 uartBufSize) {reads : List (List UInt8)} {final : Run}
    (garbage : List UInt8) (sent : List Frame) (marked : HeaderOnlyAtStarts sent)
    (delivered : reads.flatten = garbage ++ wire sent)
    (ran : (system stack).run reads = some final) (index : Nat)
    (late : 256 ≤ (wire (sent.take index)).length) :
    (sent.drop index).map Frame.target <:+ final.stored := by
  have size : uartBufSize = 256 := rfl
  rcases Nat.lt_or_ge index sent.length with inside | outside
  swap
  · rw [List.drop_eq_nil_of_le outside]
    exact List.nil_suffix
  have reached : frames.Reaches (garbage ++ wire sent)
      (garbage.length + (wire (sent.take index)).length) := by
    apply Scanner.reaches_of_noSkip
    intro pos before
    by_cases behind : garbage.length ≤ pos
    · have same : (garbage ++ wire sent).drop pos = (wire sent).drop (pos - garbage.length) := by
        rw [List.drop_append, List.drop_eq_nil_of_le behind, List.nil_append]
      obtain ⟨count, values, found, stops⟩ :=
        @frameRule_in_frames sent marked index inside (pos - garbage.length) (by omega)
      rw [same]
      exact ⟨count, values, found, by omega⟩
    · have grown : (wire (sent.take index)).length ≤ (wire sent).length := by
        have all := length_take_wire sent (Nat.le_of_lt inside)
        rwa [List.take_length] at all
      obtain ⟨count, values, found, stops⟩ :=
        @frameRule_of_long ((garbage ++ wire sent).drop pos) (by
          rw [List.length_drop, List.length_append]
          omega)
      exact ⟨count, values, found, by omega⟩
  have yields := reached.scan_suffix
  rw [List.drop_append, List.drop_eq_nil_of_le (by omega), List.nil_append,
    Nat.add_sub_cancel_left, wire_drop, scan_wire] at yields
  rw [stored_of_run stack ran, delivered]
  exact yields

/-- A frame as long as the parser's buffer, and a short one. -/
def sampleFrames : List Frame :=
  [⟨0x01, 0xAA, List.replicate 244 0x01, by decide +kernel, by decide +kernel⟩,
    ⟨0x02, 0xAA, [0x02], by decide, by decide⟩]

/-- A header whose claimed frame would end with the buffer. -/
def falseHeader : List UInt8 := header ++ [0x00, 0x00, 0xF4, 0x00]

/-- The false header costs the first frame and not the second one. -/
theorem resynchronises_sample :
    ∃ final, (system (Vector.replicate _ 0)).run
        (pieces 64 (falseHeader ++ wire sampleFrames)) = some final ∧ [0x02] <:+ final.stored := by
  obtain ⟨final, ran⟩ : ∃ final, (system (Vector.replicate _ 0)).run
      (pieces 64 (falseHeader ++ wire sampleFrames)) = some final :=
    Option.isSome_iff_exists.mp (by decide +kernel)
  have marked : HeaderOnlyAtStarts sampleFrames := by
    intro pos starts
    have inside : pos + 4 ≤ (wire sampleFrames).length := length_of_bytesAt (by decide) starts rfl
    have length : (wire sampleFrames).length = 269 := by decide +kernel
    have only : ∀ pos < 266, bytesAt (wire sampleFrames) pos 4 = header → pos = 0 ∨ pos = 256 := by
      decide +kernel
    rcases only pos (by omega) starts with first | second
    · exact ⟨0, by decide, first⟩
    · exact ⟨1, by decide, second.trans (by decide +kernel)⟩
  exact ⟨final, ran, resynchronises _ falseHeader sampleFrames marked
    (flatten_pieces (by decide) _) ran 1 (by decide +kernel)⟩

end WallUnit.Firmware.Ld2410c

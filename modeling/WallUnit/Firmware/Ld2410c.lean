import Mathlib.Data.List.GetD
import WallUnit.Foundations.Machine
import WallUnit.Foundations.Scanner

/-!
Owns `ld2410c.c`'s parse task: its 256-byte buffer, the reads from the UART, the
scan for frames, what the task stores, and every index of the buffer it reads.
Over it, a scanner of the whole byte stream, which the task computes however the
stream is cut into reads.

Does not own the UART driver: what a read returns is an input. `ld2410c_get_state`
and the mutex it shares with the task are not modelled.
-/

namespace WallUnit.Firmware.Ld2410c

open WallUnit.Foundations

/-- `UART_BUF_SIZE`. -/
def uartBufSize : Nat := 256

/-- `HEADER`. -/
def header : List UInt8 := [0xF4, 0xF3, 0xF2, 0xF1]

/-- `FOOTER`. -/
def footer : List UInt8 := [0xF8, 0xF7, 0xF6, 0xF5]

/-- The locals of `ld2410c_parse_task` that outlive an iteration, and the statics
it writes. -/
structure ParseTask where
  buf : List UInt8
  head : Nat
  targetState : UInt8
  uartValid : Bool
deriving DecidableEq, Repr

/-- One place of an iteration: its variables and the indices of `buf` read. -/
structure Visit where
  pos : Nat
  head : Nat
  reads : List Nat
deriving DecidableEq, Repr

/-- The bytes `memcmp` or a copy looks at. -/
def bytesAt (buf : List UInt8) (pos count : Nat) : List UInt8 := (buf.drop pos).take count

def byteAt (buf : List UInt8) (pos : Nat) : UInt8 := buf.getD pos 0

/-- `data_len` of a frame that starts at `pos`. -/
def dataLen (buf : List UInt8) (pos : Nat) : Nat :=
  (byteAt buf (pos + 6)).toNat ||| ((byteAt buf (pos + 7)).toNat <<< 8)

/-- `frame_len` of a frame that starts at `pos`. -/
def frameLen (buf : List UInt8) (pos : Nat) : Nat := 4 + 1 + 1 + 2 + dataLen buf pos + 4

/-- One pass of the scan loop: the indices read, the position of the next pass
unless the loop ends here, and the byte stored. -/
structure ScanPass where
  reads : List Nat
  next : Option Nat
  stored : Option UInt8
deriving DecidableEq, Repr

def scanPass (buf : List UInt8) (head pos : Nat) : ScanPass :=
  if head < pos + 4 then ⟨[], none, none⟩
  else
    let compared := List.range' pos 4
    if bytesAt buf pos 4 ≠ header then ⟨compared, some (pos + 1), none⟩
    else if head < pos + 8 then ⟨compared, none, none⟩
    else
      let measured := compared ++ [pos + 6, pos + 7]
      let frameLen := frameLen buf pos
      if head < pos + frameLen then ⟨measured, none, none⟩
      else
        let verified := measured ++ List.range' (pos + frameLen - 4) 4
        if bytesAt buf (pos + frameLen - 4) 4 = footer then
          ⟨verified ++ [pos + 8], some (pos + frameLen), some (byteAt buf (pos + 8))⟩
        else ⟨verified, some (pos + frameLen), none⟩

/-- What a scan did: the places it visited, what it stored, where it ended. -/
structure Scan where
  visits : List Visit
  stored : List UInt8
  pos : Nat
deriving DecidableEq, Repr

/-- The scan loop. A pass that does not end it advances, so `head + 1` passes are
enough. -/
def scanLoop (buf : List UInt8) (head : Nat) : Nat → Nat → Scan
  | 0, pos => ⟨[], [], pos⟩
  | fuel + 1, pos =>
      let pass := scanPass buf head pos
      match pass.next with
      | none => ⟨[⟨pos, head, pass.reads⟩], [], pos⟩
      | some next =>
          let rest := scanLoop buf head fuel next
          ⟨⟨pos, head, pass.reads⟩ :: rest.visits, pass.stored.toList ++ rest.stored, rest.pos⟩

/-- The task at its next `uart_read_bytes`: a full buffer without a frame is
discarded by an iteration that reads nothing. -/
def awaitRead (task : ParseTask) : ParseTask :=
  if uartBufSize ≤ task.head then { task with head := 0 } else task

/-- `avail`. -/
def avail (task : ParseTask) : Nat := uartBufSize - task.head

/-- `uart_read_bytes` leaves `received` behind the waiting bytes. -/
def receive (received : List UInt8) (task : ParseTask) : ParseTask :=
  { task with
    buf := task.buf.take task.head ++ received ++ task.buf.drop (task.head + received.length)
    head := task.head + received.length }

/-- `memmove(buf, buf + pos, head - pos)`. -/
def shift (pos : Nat) (task : ParseTask) : ParseTask :=
  { task with
    buf := if 0 < pos ∧ pos < task.head then
        bytesAt task.buf pos (task.head - pos) ++ task.buf.drop (task.head - pos)
      else task.buf
    head := task.head - pos }

/-- The rest of an iteration whose read returned something. -/
def parseReceived (task : ParseTask) : ParseTask × Scan :=
  let scan := scanLoop task.buf task.head (task.head + 1) 0
  let stored := { task with
    targetState := scan.stored.getLastD task.targetState
    uartValid := task.uartValid || !scan.stored.isEmpty }
  let shifted : Visit := ⟨scan.pos, task.head,
    if 0 < scan.pos ∧ scan.pos < task.head then List.range' scan.pos (task.head - scan.pos)
    else []⟩
  (shift scan.pos stored, { scan with visits := scan.visits ++ [shifted] })

/-! ### Runs of the task -/

/-- The task and what it has done so far. -/
structure Run where
  task : ParseTask
  visits : List Visit
  stored : List UInt8
deriving DecidableEq, Repr

/-- The bytes that wait in the buffer. -/
def ParseTask.unconsumed (task : ParseTask) : List UInt8 := task.buf.take task.head

/-- The task up to the end of the iteration in which a read returns `received`; a
read of nothing is a timeout. A read cannot return more than was asked for. -/
def step (run : Run) (received : List UInt8) : Option Run :=
  let task := awaitRead run.task
  if avail task < received.length then none
  else if received = [] then some { run with task := task }
  else
    let parsed := parseReceived (receive received task)
    some ⟨parsed.1, run.visits ++ parsed.2.visits, run.stored ++ parsed.2.stored⟩

/-- The task on a stack whose buffer was never initialised. -/
def system (stack : Vector UInt8 uartBufSize) : Machine Run (List UInt8) where
  init := ⟨⟨stack.toList, 0, 0, false⟩, [], []⟩
  step := step

/-! ### The scanner of the byte stream -/

/-- What the parser decides from a position, given the bytes that follow it. A
claimed length that no full buffer can hold costs exactly one buffer. -/
def frameRule (input : List UInt8) : Option (Nat × List UInt8) :=
  if input.length < 4 then none
  else if bytesAt input 0 4 ≠ header then some (1, [])
  else if input.length < 8 then none
  else if uartBufSize < frameLen input 0 then
    if input.length ≤ uartBufSize then none else some (uartBufSize, [])
  else if input.length < frameLen input 0 then none
  else if bytesAt input (frameLen input 0 - 4) 4 = footer then
    some (frameLen input 0, [byteAt input 8])
  else some (frameLen input 0, [])

section

variable {short long : List UInt8}

theorem bytesAt_of_prefix (within : short <+: long) {pos count : Nat}
    (inside : pos + count ≤ short.length) : bytesAt long pos count = bytesAt short pos count := by
  obtain ⟨rest, rfl⟩ := within
  unfold bytesAt
  rw [List.drop_append_of_le_length (by omega), List.take_append_of_le_length]
  rw [List.length_drop]
  omega

theorem byteAt_of_append (within : short <+: long) {pos : Nat} (inside : pos < short.length) :
    byteAt long pos = byteAt short pos := by
  obtain ⟨rest, rfl⟩ := within
  exact List.getD_append _ _ _ _ inside

theorem frameLen_of_prefix (within : short <+: long) (inside : 8 ≤ short.length) :
    frameLen long 0 = frameLen short 0 := by
  unfold frameLen dataLen
  rw [byteAt_of_append within (by omega), byteAt_of_append within (by omega)]

end

theorem bytesAt_drop (buf : List UInt8) (pos offset count : Nat) :
    bytesAt (buf.drop pos) offset count = bytesAt buf (pos + offset) count := by
  unfold bytesAt
  rw [List.drop_drop]

theorem byteAt_drop (buf : List UInt8) (pos offset : Nat) :
    byteAt (buf.drop pos) offset = byteAt buf (pos + offset) := by
  simp [byteAt]

theorem frameLen_drop (buf : List UInt8) (pos : Nat) :
    frameLen (buf.drop pos) 0 = frameLen buf pos := by
  simp only [frameLen, dataLen, byteAt_drop, Nat.zero_add]

theorem twelve_le_frameLen (buf : List UInt8) (pos : Nat) : 12 ≤ frameLen buf pos := by
  unfold frameLen
  omega

theorem frameRule_progress {input : List UInt8} {count : Nat} {values : List UInt8}
    (found : frameRule input = some (count, values)) : 0 < count ∧ count ≤ input.length := by
  have long := twelve_le_frameLen input 0
  have size : uartBufSize = 256 := rfl
  unfold frameRule at found
  split_ifs at found <;> cases found <;> omega

theorem frameRule_stable {input : List UInt8} {found : Nat × List UInt8} (more : List UInt8)
    (decided : frameRule input = some found) : frameRule (input ++ more) = some found := by
  have within : input <+: input ++ more := List.prefix_append _ _
  have grown : input.length ≤ (input ++ more).length := within.length_le
  unfold frameRule at decided ⊢
  by_cases short : input.length < 4
  · rw [if_pos short] at decided
    contradiction
  rw [if_neg short] at decided
  rw [if_neg (by omega), bytesAt_of_prefix within (by omega)]
  by_cases marked : bytesAt input 0 4 ≠ header
  · rwa [if_pos marked] at decided ⊢
  rw [if_neg marked] at decided ⊢
  by_cases unmeasured : input.length < 8
  · rw [if_pos unmeasured] at decided
    contradiction
  rw [if_neg unmeasured] at decided
  rw [if_neg (by omega), frameLen_of_prefix within (by omega)]
  by_cases impossible : uartBufSize < frameLen input 0
  · rw [if_pos impossible] at decided ⊢
    by_cases waiting : input.length ≤ uartBufSize
    · rw [if_pos waiting] at decided
      contradiction
    · rw [if_neg waiting] at decided
      rwa [if_neg (by omega)]
  rw [if_neg impossible] at decided ⊢
  by_cases incomplete : input.length < frameLen input 0
  · rw [if_pos incomplete] at decided
    contradiction
  have long := twelve_le_frameLen input 0
  rw [if_neg incomplete] at decided
  rwa [if_neg (by omega), bytesAt_of_prefix within (by omega), byteAt_of_append within (by omega)]

def frames : Scanner UInt8 UInt8 where
  next := frameRule
  progress := frameRule_progress
  stable := frameRule_stable

/-! ### The task computes the scanner -/

theorem scanPass_bounds (buf : List UInt8) (head pos : Nat) :
    (∀ index ∈ (scanPass buf head pos).reads, index < head) ∧
      ∀ next, (scanPass buf head pos).next = some next → pos < next ∧ next ≤ head := by
  have long := twelve_le_frameLen buf pos
  simp only [scanPass]
  split_ifs <;> constructor <;> intro index found <;> simp [List.mem_range'_1] at found <;> omega

/-- A pass decides what the rule decides on the bytes between `pos` and `head`. -/
theorem frameRule_window {buf : List UInt8} {head pos : Nat} (room : head ≤ uartBufSize)
    (filled : head ≤ buf.length) :
    frameRule ((buf.take head).drop pos) = (scanPass buf head pos).next.map fun next =>
      (next - pos, (scanPass buf head pos).stored.toList) := by
  have within : (buf.take head).drop pos <+: buf.drop pos := by
    rw [List.drop_take]
    exact List.take_prefix _ _
  have size : ((buf.take head).drop pos).length = head - pos := by
    rw [List.length_drop, List.length_take]
    omega
  have long := twelve_le_frameLen buf pos
  simp only [frameRule, scanPass, size]
  by_cases short : head < pos + 4
  · rw [if_pos (by omega), if_pos short]
    rfl
  rw [if_neg (by omega), if_neg short, ← bytesAt_of_prefix within (by omega), bytesAt_drop]
  by_cases marked : bytesAt buf pos 4 ≠ header
  · simp [marked]
  simp only [Nat.add_zero, if_neg marked]
  by_cases unmeasured : head < pos + 8
  · rw [if_pos (by omega), if_pos unmeasured]
    rfl
  rw [if_neg (by omega), if_neg unmeasured, ← frameLen_of_prefix within (by omega), frameLen_drop]
  by_cases incomplete : head < pos + frameLen buf pos
  · rw [if_pos incomplete]
    split_ifs <;> first | rfl | omega
  rw [if_neg (by omega), if_neg (by omega), if_neg incomplete,
    ← bytesAt_of_prefix within (by omega), ← byteAt_of_append within (by omega), bytesAt_drop,
    byteAt_drop, ← Nat.add_sub_assoc (by omega)]
  split_ifs <;> simp

/-- With a pass for every waiting byte, the loop is the scan of those bytes. -/
theorem scanLoop_scan {buf : List UInt8} {head : Nat} (room : head ≤ uartBufSize)
    (filled : head ≤ buf.length) (fuel pos : Nat) (ordered : pos ≤ head)
    (enough : head < fuel + pos) :
    (scanLoop buf head fuel pos).stored = (frames.scan ((buf.take head).drop pos)).1 ∧
      (buf.take head).drop (scanLoop buf head fuel pos).pos =
        (frames.scan ((buf.take head).drop pos)).2 ∧
      (scanLoop buf head fuel pos).pos ≤ head := by
  induction fuel generalizing pos with
  | zero => omega
  | succ fuel inductionHypothesis =>
      have rule : frames.next ((buf.take head).drop pos) = _ := frameRule_window room filled
      have bounds := (scanPass_bounds buf head pos).2
      simp only [scanLoop]
      cases decided : (scanPass buf head pos).next with
      | none =>
          rw [decided] at rule
          rw [frames.scan_of_none rule]
          exact ⟨rfl, rfl, ordered⟩
      | some next =>
          obtain ⟨later, inside⟩ := bounds next decided
          rw [decided] at rule
          have here : ((buf.take head).drop pos).drop (next - pos) = (buf.take head).drop next := by
            rw [List.drop_drop, Nat.add_sub_of_le (by omega)]
          rw [frames.scan_of_some rule, here]
          obtain ⟨stored, rest, ends⟩ := inductionHypothesis next inside (by omega)
          exact ⟨congrArg _ stored, rest, ends⟩

/-- `0 ≤ pos ≤ head ≤ 256`, and every byte read lies below `head`. -/
def Visit.Bounded (visit : Visit) : Prop :=
  visit.pos ≤ visit.head ∧ visit.head ≤ uartBufSize ∧ ∀ index ∈ visit.reads, index < visit.head

theorem scanLoop_bounded {buf : List UInt8} {head : Nat} (room : head ≤ uartBufSize)
    (fuel pos : Nat) (ordered : pos ≤ head) :
    ∀ visit ∈ (scanLoop buf head fuel pos).visits, visit.Bounded := by
  induction fuel generalizing pos with
  | zero => simp [scanLoop]
  | succ fuel inductionHypothesis =>
      obtain ⟨reads, advance⟩ := scanPass_bounds buf head pos
      intro visit member
      simp only [scanLoop] at member
      cases decided : (scanPass buf head pos).next with
      | none =>
          rw [decided] at member
          obtain rfl := List.mem_singleton.mp member
          exact ⟨ordered, room, reads⟩
      | some next =>
          rw [decided] at member
          rcases List.mem_cons.mp member with rfl | later
          · exact ⟨ordered, room, reads⟩
          · exact inductionHypothesis next (advance next decided).2 visit later

/-! ### What a read can do -/

/-- The buffer keeps its size and `head` stays inside it. -/
structure ParseTask.Fits (task : ParseTask) : Prop where
  size : task.buf.length = uartBufSize
  head_le : task.head ≤ uartBufSize

theorem awaitRead_fits {task : ParseTask} (fits : task.Fits) : (awaitRead task).Fits := by
  unfold awaitRead
  split_ifs
  · exact ⟨fits.size, Nat.zero_le _⟩
  · exact fits

theorem receive_fits {task : ParseTask} {received : List UInt8} (fits : task.Fits)
    (asked : received.length ≤ avail task) : (receive received task).Fits := by
  have size := fits.size
  have head := fits.head_le
  unfold avail at asked
  constructor
  · simp only [receive, List.length_append, List.length_take, List.length_drop]
    omega
  · simp only [receive]
    omega

theorem unconsumed_receive {task : ParseTask} {received : List UInt8} (fits : task.Fits) :
    (receive received task).unconsumed = task.unconsumed ++ received := by
  have size := fits.size
  have head := fits.head_le
  have waiting : (task.buf.take task.head ++ received).length = task.head + received.length := by
    rw [List.length_append, List.length_take]
    omega
  exact List.take_left' waiting

theorem shift_fits {task : ParseTask} (pos : Nat) (fits : task.Fits) : (shift pos task).Fits := by
  have size := fits.size
  have head := fits.head_le
  constructor
  · simp only [shift, bytesAt]
    split_ifs
    · simp only [List.length_append, List.length_take, List.length_drop]
      omega
    · exact size
  · simp only [shift]
    omega

theorem unconsumed_shift {task : ParseTask} {pos : Nat} (fits : task.Fits)
    (ordered : pos ≤ task.head) :
    (shift pos task).unconsumed = task.unconsumed.drop pos := by
  have size := fits.size
  have head := fits.head_le
  simp only [ParseTask.unconsumed, shift, bytesAt, List.drop_take]
  split_ifs with moved
  · have length : ((task.buf.drop pos).take (task.head - pos)).length = task.head - pos := by
      rw [List.length_take, List.length_drop]
      omega
    exact List.take_left' length
  · rcases Nat.eq_zero_or_pos pos with rfl | positive
    · rfl
    · have all : task.head - pos = 0 := by omega
      rw [all, List.take_zero, List.take_zero]

/-- The rest of an iteration scans what waits and keeps what the scan leaves. -/
theorem parseReceived_scan {task : ParseTask} (fits : task.Fits) :
    (parseReceived task).2.stored = (frames.scan task.unconsumed).1 ∧
      (parseReceived task).1.unconsumed = (frames.scan task.unconsumed).2 ∧
      (parseReceived task).1.Fits := by
  have filled : task.head ≤ task.buf.length := fits.size ▸ fits.head_le
  obtain ⟨stored, rest, ordered⟩ := scanLoop_scan fits.head_le filled (task.head + 1) 0
    (Nat.zero_le _) (by omega)
  rw [List.drop_zero] at stored rest
  refine ⟨stored, ?_, shift_fits _ ⟨fits.size, fits.head_le⟩⟩
  rw [← ParseTask.unconsumed] at rest
  rw [← rest]
  exact unconsumed_shift ⟨fits.size, fits.head_le⟩ ordered

theorem parseReceived_bounded {task : ParseTask} (fits : task.Fits) :
    ∀ visit ∈ (parseReceived task).2.visits, visit.Bounded := by
  have filled : task.head ≤ task.buf.length := fits.size ▸ fits.head_le
  have ordered := (scanLoop_scan fits.head_le filled (task.head + 1) 0 (Nat.zero_le _)
    (by omega)).2.2
  intro visit member
  rcases List.mem_append.mp member with scanned | shifted
  · exact scanLoop_bounded fits.head_le _ 0 (Nat.zero_le _) visit scanned
  · obtain rfl := List.mem_singleton.mp shifted
    refine ⟨ordered, fits.head_le, ?_⟩
    intro index read
    split_ifs at read with moved
    · have above := (List.mem_range'_1.mp read).2
      simp only
      omega
    · contradiction

/-- A full buffer that still waits holds an impossible claim: the next byte costs
the scanner the whole of it. -/
theorem frameRule_full {waiting more : List UInt8} (full : waiting.length = uartBufSize)
    (waits : frameRule waiting = none) (nonempty : more ≠ []) :
    frameRule (waiting ++ more) = some (uartBufSize, []) := by
  have size : uartBufSize = 256 := rfl
  have within : waiting <+: waiting ++ more := List.prefix_append _ _
  have grown : uartBufSize < (waiting ++ more).length := by
    have := List.length_pos_iff.mpr nonempty
    rw [List.length_append]
    omega
  unfold frameRule at waits ⊢
  rw [if_neg (by omega), bytesAt_of_prefix within (by omega)]
  rw [if_neg (by omega)] at waits
  by_cases marked : bytesAt waiting 0 4 ≠ header
  · rw [if_pos marked] at waits
    contradiction
  rw [if_neg marked, if_neg (by omega)] at waits
  rw [if_neg marked, if_neg (by omega), frameLen_of_prefix within (by omega)]
  by_cases impossible : uartBufSize < frameLen waiting 0
  · rw [if_pos impossible, if_neg (by omega)]
  · rw [if_neg impossible, if_neg (by omega)] at waits
    split_ifs at waits

/-- Discarding a full buffer before the next read is what the scanner does with
it when that read arrives. -/
theorem scan_awaitRead {task : ParseTask} (fits : task.Fits)
    (waits : frames.next task.unconsumed = none) {received : List UInt8}
    (nonempty : received ≠ []) :
    frames.scan (task.unconsumed ++ received) =
      frames.scan ((awaitRead task).unconsumed ++ received) := by
  unfold awaitRead
  split_ifs with discarded
  · have full : task.unconsumed.length = uartBufSize := by
      have size := fits.size
      have head := fits.head_le
      simp only [ParseTask.unconsumed, List.length_take]
      omega
    have found : frames.next (task.unconsumed ++ received) = some (uartBufSize, []) :=
      frameRule_full full waits nonempty
    rw [frames.scan_of_some found, ← full, List.drop_left]
    simp [ParseTask.unconsumed]
  · rfl

/-! ### Whole runs -/

/-- The run has done what the scanner does with the bytes delivered. -/
structure Agrees (stream : List UInt8) (run : Run) : Prop where
  fits : run.task.Fits
  stored : run.stored = (frames.scan stream).1
  unconsumed : run.task.unconsumed = (frames.scan stream).2
  bounded : ∀ visit ∈ run.visits, visit.Bounded

theorem agrees_start (stack : Vector UInt8 uartBufSize) : Agrees [] (system stack).init where
  fits := ⟨stack.length_toList, Nat.zero_le _⟩
  stored := by rw [frames.scan_of_none rfl]; rfl
  unconsumed := by rw [frames.scan_of_none rfl]; rfl
  bounded := by simp [system]

theorem agrees_step {stream received : List UInt8} {run next : Run} (agrees : Agrees stream run)
    (nonempty : received ≠ []) (stepped : step run received = some next) :
    Agrees (stream ++ received) next := by
  unfold step at stepped
  by_cases overlong : avail (awaitRead run.task) < received.length
  · rw [if_pos overlong] at stepped
    contradiction
  rw [if_neg overlong, if_neg nonempty] at stepped
  have same := Option.some.inj stepped
  subst same
  have asked : received.length ≤ avail (awaitRead run.task) := by omega
  have ready := awaitRead_fits agrees.fits
  have filled := receive_fits ready asked
  have waits : frames.next run.task.unconsumed = none := by
    rw [agrees.unconsumed]
    exact frames.next_scan_rest stream
  have continued : frames.scan (stream ++ received) =
      (run.stored ++ (frames.scan (receive received (awaitRead run.task)).unconsumed).1,
        (frames.scan (receive received (awaitRead run.task)).unconsumed).2) := by
    rw [frames.scan_append, ← agrees.stored, ← agrees.unconsumed,
      scan_awaitRead agrees.fits waits nonempty, unconsumed_receive ready]
  obtain ⟨stored, rest, kept⟩ := parseReceived_scan filled
  refine ⟨kept, ?_, ?_, ?_⟩
  · rw [continued]
    exact congrArg _ stored
  · rw [continued]
    exact rest
  · intro visit member
    rcases List.mem_append.mp member with earlier | now
    · exact agrees.bounded visit earlier
    · exact parseReceived_bounded filled visit now

/-- After non-empty reads the task has done what the scanner does with their
concatenation. -/
theorem agrees_run (stack : Vector UInt8 uartBufSize) {reads : List (List UInt8)} {final : Run}
    (nonempty : ∀ received ∈ reads, received ≠ [])
    (ran : (system stack).run reads = some final) : Agrees reads.flatten final := by
  have past := Machine.history_invariant
    (fun past run => (∀ received ∈ past, received ≠ []) → Agrees past.flatten run) ?_ []
    (fun _ => agrees_start stack) ((system stack).along_true _ reads) ran
  · exact past nonempty
  · intro past run received next agrees _ stepped nonempty
    rw [List.flatten_append, List.flatten_singleton]
    exact agrees_step (agrees fun other member => nonempty other (by simp [member]))
      (nonempty received (by simp)) stepped

/-- `s_target_state` is the last value stored, and `s_uart_valid` says that there
is one; timeouts change neither. -/
theorem statics_of_run (stack : Vector UInt8 uartBufSize) {reads : List (List UInt8)}
    {final : Run} (ran : (system stack).run reads = some final) :
    final.task.targetState = final.stored.getLastD 0 ∧
      final.task.uartValid = !final.stored.isEmpty := by
  revert ran
  apply @Machine.invariant _ _ (system stack) fun run =>
    run.task.targetState = run.stored.getLastD 0 ∧ run.task.uartValid = !run.stored.isEmpty
  · exact ⟨rfl, rfl⟩
  rintro run received next ⟨target, valid⟩ stepped
  have kept : (awaitRead run.task).targetState = run.task.targetState ∧
      (awaitRead run.task).uartValid = run.task.uartValid := by
    unfold awaitRead
    split_ifs <;> exact ⟨rfl, rfl⟩
  simp only [system, step] at stepped
  split_ifs at stepped with overlong timeout
  · have same := Option.some.inj stepped
    subst same
    exact ⟨kept.1.trans target, kept.2.trans valid⟩
  · have same := Option.some.inj stepped
    subst same
    simp only [parseReceived, shift, receive, kept, target, valid]
    generalize (scanLoop _ _ _ _).stored = now
    constructor
    · cases now <;> simp [List.getLastD_eq_getLast?, List.getLast?_append]
    · cases now <;> simp

/-- Two ways to deliver one stream in non-empty reads store the same values and
leave the same bytes, and no iteration leaves its buffer. -/
theorem parse_split_independent (firstStack secondStack : Vector UInt8 uartBufSize)
    {first second : List (List UInt8)} {firstEnd secondEnd : Run}
    (firstNonempty : ∀ received ∈ first, received ≠ [])
    (secondNonempty : ∀ received ∈ second, received ≠ [])
    (sameStream : first.flatten = second.flatten)
    (firstRan : (system firstStack).run first = some firstEnd)
    (secondRan : (system secondStack).run second = some secondEnd) :
    firstEnd.stored = secondEnd.stored ∧
      firstEnd.task.unconsumed = secondEnd.task.unconsumed ∧
      ∀ visit ∈ firstEnd.visits, visit.Bounded := by
  have one := agrees_run firstStack firstNonempty firstRan
  have two := agrees_run secondStack secondNonempty secondRan
  refine ⟨?_, ?_, one.bounded⟩
  · rw [one.stored, two.stored, sameStream]
  · rw [one.unconsumed, two.unconsumed, sameStream]

/-- A noise byte, a frame reporting target state 2 and the start of another one. -/
def sampleStream : List UInt8 :=
  [0x00] ++ header ++ [0x02, 0xAA, 0x01, 0x00, 0x02] ++ footer ++ [0xF4, 0xF3]

/-- The sample stream, whole and byte by byte. -/
theorem parse_split_independent_sample :
    ((system (Vector.replicate _ 0)).run [sampleStream]).map
        (fun run => (run.stored, run.task.unconsumed)) =
      ((system (Vector.replicate _ 7)).run (sampleStream.map fun byte => [byte])).map
        (fun run => (run.stored, run.task.unconsumed)) := by
  obtain ⟨whole, wholeRan⟩ : ∃ final,
      (system (Vector.replicate _ 0)).run [sampleStream] = some final :=
    Option.isSome_iff_exists.mp (by decide +kernel)
  obtain ⟨bytewise, bytewiseRan⟩ : ∃ final,
      (system (Vector.replicate _ 7)).run (sampleStream.map fun byte => [byte]) = some final :=
    Option.isSome_iff_exists.mp (by decide +kernel)
  obtain ⟨stored, rest, -⟩ := parse_split_independent _ _ (by decide +kernel)
    (by decide +kernel) (by decide +kernel) wholeRan bytewiseRan
  rw [wholeRan, bytewiseRan, Option.map_some, Option.map_some, stored, rest]

end WallUnit.Firmware.Ld2410c

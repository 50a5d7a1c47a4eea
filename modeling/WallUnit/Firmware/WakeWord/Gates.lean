import Mathlib

/-!
Owns what one iteration of `wake_word_task_fn` computes on its own variables:
the presence gate, the clipping and energy rings, the warm-up credit, the
consecutive-step streak and the two acoustic gates. Counters that only feed the
heartbeat log are left out.

Does not own the order in which the iteration touches the variables it shares
with the main task, nor the model behind `wake_word_feed`, whose score and step
count are inputs.
-/

namespace WallUnit.Firmware.WakeWord

/-- `WARMUP_STEPS_AFTER_RESET`. -/
def warmupStepsAfterReset : Nat := 20

/-- `WAKE_CONSECUTIVE_STEPS`. -/
def wakeConsecutiveSteps : Nat := 2

/-- `CHUNK_SAMPLES`. -/
def chunkSamples : Nat := 160

/-- `SAT_WINDOW_CHUNKS`, the size of both rings. -/
def satWindowChunks : Nat := 150

/-- `SAT_RECENT_CHUNKS`. -/
def satRecentChunks : Nat := 30

/-- `SAT_REJECT_PCT`. -/
def satRejectPct : Nat := 101

/-- `QUIET_PRE_SPAN`. -/
def quietPreSpan : Nat := 50

/-- `QUIET_MAX_MEANSQ`. -/
def quietMaxMeansq : Nat := 100000000

/-- `PRESENCE_HOLDOFF_US`. -/
def presenceHoldoffUs : Int := 30 * 1000000

/-- The variables of the loop that outlive an iteration. -/
structure LoopVars where
  lastPresenceUs : Int
  wasOccupied : Bool
  consecAbove : Nat
  satRing : Nat → Nat
  meansqRing : Nat → Nat
  satRingIdx : Nat

/-- The variables when the loop is entered at time `now`. -/
def LoopVars.start (now : Int) : LoopVars where
  lastPresenceUs := now
  wasOccupied := true
  consecAbove := 0
  satRing := fun _ => 0
  meansqRing := fun _ => 0
  satRingIdx := 0

/-- What one iteration gets from outside. `radar` is absent when
`ld2410c_get_state` fails. -/
structure Iteration where
  pcm : List Int
  pir : Bool
  radar : Option Bool
  nowUs : Int
  score : UInt8
  steps : Nat
  threshold : UInt8
deriving DecidableEq, Repr

/-! ### Presence -/

/-- `check_room_occupied`: the answer and the new `last_presence_us`. -/
def checkRoomOccupied (input : Iteration) (lastPresenceUs : Int) : Bool × Int :=
  if input.pir || input.radar.getD false then (true, input.nowUs)
  else (decide (input.nowUs - lastPresenceUs < presenceHoldoffUs), lastPresenceUs)

/-! ### Rings -/

def chunkClipped (pcm : List Int) : Nat :=
  pcm.countP fun sample => 32767 ≤ sample.natAbs

def chunkSumSq (pcm : List Int) : Nat :=
  (pcm.map fun sample => sample.natAbs * sample.natAbs).sum

def chunkMeansq (pcm : List Int) : Nat := chunkSumSq pcm / pcm.length

/-- Overwrite the oldest slot of both rings and move the index forward. -/
def advanceRings (pcm : List Int) (vars : LoopVars) : LoopVars :=
  { vars with
    satRing := Function.update vars.satRing vars.satRingIdx (min (chunkClipped pcm) 255)
    meansqRing := Function.update vars.meansqRing vars.satRingIdx (chunkMeansq pcm)
    satRingIdx := (vars.satRingIdx + 1) % satWindowChunks }

/-- Clipped samples in the newest `SAT_RECENT_CHUNKS` chunks. -/
def satRecentClips (vars : LoopVars) : Nat :=
  ((List.range satRecentChunks).map fun k =>
    vars.satRing ((vars.satRingIdx + satWindowChunks - (k + 1)) % satWindowChunks)).sum

def satPct (vars : LoopVars) : Nat :=
  satRecentClips vars * 100 / (satRecentChunks * chunkSamples)

/-- `pre_avg_meansq`: the average over the `QUIET_PRE_SPAN` oldest chunks. -/
def preAvgMeansq (vars : LoopVars) : Nat :=
  ((List.range quietPreSpan).map fun i =>
    vars.meansqRing ((vars.satRingIdx + i) % satWindowChunks)).sum / quietPreSpan

/-! ### Streak and gates -/

/-- The `consecAbove` update: whether the streak is long enough, and the streak. -/
def advanceStreak (score : UInt8) (steps : Nat) (threshold : UInt8) (consecAbove : Nat) :
    Bool × Nat :=
  if 0 < steps then
    if threshold ≤ score then
      let longer := if consecAbove < 2 ^ 32 - 1 then consecAbove + 1 else consecAbove
      (decide (wakeConsecutiveSteps ≤ longer), longer)
    else (false, 0)
  else (false, consecAbove)

/-- From the streak to the decision: the saturation gate, then the quiet-before
gate. A rejected or honoured detection clears the streak. -/
def decideFire (input : Iteration) (vars : LoopVars) : Bool × LoopVars :=
  let (fire, consecAbove) :=
    advanceStreak input.score input.steps input.threshold vars.consecAbove
  if !fire then (false, { vars with consecAbove := consecAbove })
  else if satRejectPct ≤ satPct vars then (false, { vars with consecAbove := 0 })
  else if quietMaxMeansq < preAvgMeansq vars then (false, { vars with consecAbove := 0 })
  else (true, { vars with consecAbove := 0 })

end WallUnit.Firmware.WakeWord

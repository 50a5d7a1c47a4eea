import WallUnit.Firmware.VoiceTurn.Capture
import WallUnit.Foundations.EndPoint

/-!
Owns the specification of `_capture_utterance` in VAD builds: from the frames the
microphone delivers, when the turn is abandoned, where the capture stops, what it keeps
and what it returns. The capture meets it: `captureUtterance_spec`.

Does not own the capture, which `Capture` embeds, nor the encoder, which has no say in
it.
-/

namespace WallUnit.Firmware.VoiceTurn

open WallUnit.Firmware.Opus
open WallUnit.Foundations

/-! ### What the microphone delivers -/

/-- The frames read in full, as many as there is room for, and the samples of the frame
that an underrun cuts short. -/
def heard : Nat → Microphone → List (List Int) × List Int
  | 0, _ => ([], [])
  | room + 1, mic =>
      let (frame, mic) := readFully frameSamples mic.splits mic.samples []
      if frame.length ≠ frameSamples then ([], frame)
      else
        let rest := heard room mic
        (frame :: rest.1, rest.2)

/-- `is_speech`. -/
def isSpeech (config : VadConfig) (frame : List Int) : Bool :=
  decide (config.speechEnergyThreshold ≤ meanSq frame)

def hangoverFrames (config : VadConfig) : Nat := config.hangoverMs / frameMs

def maxLeadFrames (config : VadConfig) : Nat := config.maxLeadSilenceMs / frameMs

def minUtterFrames (config : VadConfig) : Nat := config.minUtteranceMs / frameMs

/-- The first frames, as many as the lead allows, are all there and silent. -/
def SilentLead (config : VadConfig) (frames : List (List Int)) : Prop :=
  maxLeadFrames config ≤ frames.length ∧
    ∀ frame ∈ frames.take (maxLeadFrames config), isSpeech config frame = false

section

variable {want : Nat} {splits : List Nat} {samples got : List Int}

/-- The reads of a frame hand out samples in order. -/
theorem readFully_samples (want : Nat) (splits : List Nat) (samples got : List Int) :
    (readFully want splits samples got).1 ++ (readFully want splits samples got).2.samples =
      got ++ samples := by
  induction splits generalizing samples got with
  | nil => rfl
  | cons size splits inductionHypothesis =>
      simp only [readFully]
      split_ifs with wants dry
      · rfl
      · rw [inductionHypothesis, List.append_assoc, List.length_take]
        congr 1
        conv_rhs => rw [← List.take_append_drop (min size (want - got.length)) samples]
        congr 1
        rcases Nat.le_total (min size (want - got.length)) samples.length with less | more
        · rw [Nat.min_eq_left less]
        · rw [Nat.min_eq_right more, List.drop_length, List.drop_eq_nil_of_le more]
      · rfl

theorem length_readFully (bounded : got.length ≤ want) :
    (readFully want splits samples got).1.length ≤ want := by
  induction splits generalizing samples got with
  | nil => exact bounded
  | cons size splits inductionHypothesis =>
      simp only [readFully]
      split_ifs with wants dry
      · exact bounded
      · apply inductionHypothesis
        rw [List.length_append, List.length_take]
        omega
      · exact bounded

end

/-- What is heard is what the microphone holds next. -/
theorem heard_samples (room : Nat) (mic : Microphone) :
    (heard room mic).1.flatten ++ (heard room mic).2 <+: mic.samples := by
  induction room generalizing mic with
  | zero => exact List.nil_prefix
  | succ room inductionHypothesis =>
      have order := readFully_samples frameSamples mic.splits mic.samples []
      rw [List.nil_append] at order
      rw [heard]
      generalize readFully frameSamples mic.splits mic.samples [] = read at order
      obtain ⟨frame, next⟩ := read
      dsimp only at order ⊢
      rw [← order]
      split_ifs with cut
      · exact List.prefix_append _ _
      · rw [List.flatten_cons, List.append_assoc]
        exact (List.prefix_append_right_inj frame).mpr (inductionHypothesis next)

/-- What is heard fits. -/
theorem heard_length (room : Nat) (mic : Microphone) :
    ((heard room mic).1.flatten ++ (heard room mic).2).length ≤ room * frameSamples := by
  induction room generalizing mic with
  | zero => exact Nat.zero_le _
  | succ room inductionHypothesis =>
      have bounded := @length_readFully frameSamples mic.splits mic.samples [] (Nat.zero_le _)
      rw [heard, Nat.succ_mul]
      generalize readFully frameSamples mic.splits mic.samples [] = read at bounded
      obtain ⟨frame, next⟩ := read
      dsimp only at bounded ⊢
      split_ifs with cut
      · exact bounded.trans (Nat.le_add_left _ _)
      · have rest := inductionHypothesis next
        rw [List.flatten_cons, List.append_assoc, List.length_append, Nat.add_comm]
        exact Nat.add_le_add rest bounded

/-! ### The counters -/

/-- The counters of the frame loop say what has been heard, and neither exit of the loop
was due so far. -/
structure Counts (config : VadConfig) (past : List (List Int)) (capture : Capture) : Prop where
  pcm : capture.pcm = past.flatten
  speech : capture.speechFrames = past.countP (isSpeech config)
  started : capture.speechStarted = past.any (isSpeech config)
  lead : capture.speechStarted = false → capture.leadFrames = past.length
  trailing : capture.speechStarted = true →
    capture.trailingSilence = trailingRun (isSpeech config) past
  patient : capture.speechStarted = false → past.length < maxLeadFrames config
  inLead : capture.speechStarted = true →
    ∃ frame ∈ past.take (maxLeadFrames config), isSpeech config frame = true
  going : ∀ place ≤ past.length,
    ¬ EndsRun (isSpeech config) (hangoverFrames config) (past.take place)

/-- The encoder changes nothing the counters depend on. -/
theorem takeFrame_fields (encoder : Nat → EncodeOutcome) (frame : List Int) (mic : Microphone)
    (capture : Capture) :
    (takeFrame encoder frame mic capture).pcm = capture.pcm ++ frame ∧
      (takeFrame encoder frame mic capture).mic = mic ∧
      (takeFrame encoder frame mic capture).leadFrames = capture.leadFrames ∧
      (takeFrame encoder frame mic capture).speechFrames = capture.speechFrames ∧
      (takeFrame encoder frame mic capture).trailingSilence = capture.trailingSilence ∧
      (takeFrame encoder frame mic capture).speechStarted = capture.speechStarted := by
  rw [takeFrame, feedFrame]
  split <;> exact ⟨rfl, rfl, rfl, rfl, rfl, rfl⟩

section

variable {config : VadConfig} {past : List (List Int)} {capture next : Capture}
  {frame : List Int}

/-- Nothing ended before the new frame, and the new frame ends nothing. -/
theorem Counts.going_append (counts : Counts config past capture)
    (now : ¬ EndsRun (isSpeech config) (hangoverFrames config) (past ++ [frame])) :
    ∀ place ≤ (past ++ [frame]).length,
      ¬ EndsRun (isSpeech config) (hangoverFrames config) ((past ++ [frame]).take place) := by
  intro place inside
  rcases Nat.lt_or_eq_of_le inside with earlier | last
  · rw [List.length_append, List.length_singleton] at earlier
    rw [endsRun_take_append (Nat.le_of_lt_succ earlier)]
    exact counts.going place (Nat.le_of_lt_succ earlier)
  · rwa [last, List.take_length]

theorem any_append_frame (config : VadConfig) (past : List (List Int)) (frame : List Int) :
    (past ++ [frame]).any (isSpeech config) =
      (past.any (isSpeech config) || isSpeech config frame) := by
  rw [List.any_append, List.any_cons, List.any_nil, Bool.or_false]

theorem Counts.pcm_append (counts : Counts config past capture)
    (pcm : next.pcm = capture.pcm ++ frame) : next.pcm = (past ++ [frame]).flatten := by
  rw [pcm, counts.pcm, List.flatten_append, List.flatten_singleton]

/-- A silent frame is not counted. -/
theorem Counts.speech_append (counts : Counts config past capture)
    (quiet : isSpeech config frame = false) (speech : next.speechFrames = capture.speechFrames) :
    next.speechFrames = (past ++ [frame]).countP (isSpeech config) := by
  rw [speech, counts.speech, List.countP_append, List.countP_singleton, quiet,
    if_neg Bool.false_ne_true, Nat.add_zero]

/-- Silence goes on. -/
theorem Counts.silent_append (counts : Counts config past capture)
    (quiet : isSpeech config frame = false) (before : capture.speechStarted = false) :
    (past ++ [frame]).any (isSpeech config) = false := by
  rw [any_append_frame, quiet, ← counts.started, before, Bool.or_false]

/-- A frame of speech inside the lead stays there. -/
theorem inLead_append (more : List (List Int))
    (inLead : ∃ frame ∈ past.take (maxLeadFrames config), isSpeech config frame = true) :
    ∃ frame ∈ (past ++ more).take (maxLeadFrames config), isSpeech config frame = true := by
  obtain ⟨frame, member, spoken⟩ := inLead
  refine ⟨frame, ?_, spoken⟩
  rw [List.take_append]
  exact List.mem_append_left _ member

/-- A frame of speech. -/
theorem Counts.speak (counts : Counts config past capture)
    (positive : 0 < hangoverFrames config) (loud : isSpeech config frame = true)
    (pcm : next.pcm = capture.pcm ++ frame)
    (speech : next.speechFrames = capture.speechFrames + 1) (started : next.speechStarted = true)
    (trailing : next.trailingSilence = 0) : Counts config (past ++ [frame]) next where
  pcm := counts.pcm_append pcm
  speech := by
    rw [speech, counts.speech, List.countP_append, List.countP_singleton, if_pos loud]
  started := by
    rw [started, any_append_frame, loud, Bool.or_true]
  lead := by
    intro silent
    rw [started] at silent
    contradiction
  trailing := by
    intro _
    rw [trailing, trailingRun_append_marked loud]
  patient := by
    intro silent
    rw [started] at silent
    contradiction
  inLead := by
    intro _
    cases before : capture.speechStarted with
    | true => exact inLead_append _ (counts.inLead before)
    | false =>
        -- the first frame of speech, still inside the lead
        have inside := counts.patient before
        refine ⟨frame, ?_, loud⟩
        have all : (past ++ [frame]).length ≤ maxLeadFrames config := by
          rw [List.length_append, List.length_singleton]
          exact inside
        rw [List.take_of_length_le all]
        exact List.mem_append_right _ List.mem_cons_self
  going := by
    apply counts.going_append
    intro ends
    have long := ends.le_trailingRun
    rw [trailingRun_append_marked loud] at long
    omega

/-- A silent frame before any speech. -/
theorem Counts.wait (counts : Counts config past capture) (quiet : isSpeech config frame = false)
    (before : capture.speechStarted = false) (pcm : next.pcm = capture.pcm ++ frame)
    (speech : next.speechFrames = capture.speechFrames) (started : next.speechStarted = false)
    (lead : next.leadFrames = capture.leadFrames + 1)
    (patient : next.leadFrames < maxLeadFrames config) :
    Counts config (past ++ [frame]) next where
  pcm := counts.pcm_append pcm
  speech := counts.speech_append quiet speech
  started := by
    rw [started, counts.silent_append quiet before]
  lead := by
    intro _
    rw [lead, counts.lead before, List.length_append, List.length_singleton]
  trailing := by
    intro spoken
    rw [started] at spoken
    contradiction
  patient := by
    intro _
    rw [lead, counts.lead before] at patient
    rwa [List.length_append, List.length_singleton]
  inLead := by
    intro spoken
    rw [started] at spoken
    contradiction
  going := by
    apply counts.going_append
    intro ends
    obtain ⟨other, member, spoken⟩ := ends.exists_marked
    exact absurd spoken (List.any_eq_false.mp (counts.silent_append quiet before) other member)

/-- A silent frame behind speech, short of the hangover. -/
theorem Counts.pause (counts : Counts config past capture) (quiet : isSpeech config frame = false)
    (before : capture.speechStarted = true) (pcm : next.pcm = capture.pcm ++ frame)
    (speech : next.speechFrames = capture.speechFrames) (started : next.speechStarted = true)
    (trailing : next.trailingSilence = capture.trailingSilence + 1)
    (short : next.trailingSilence < hangoverFrames config) :
    Counts config (past ++ [frame]) next where
  pcm := counts.pcm_append pcm
  speech := counts.speech_append quiet speech
  started := by
    rw [started, any_append_frame, ← counts.started, before, Bool.true_or]
  lead := by
    intro silent
    rw [started] at silent
    contradiction
  trailing := by
    intro _
    rw [trailing, counts.trailing before, trailingRun_append_unmarked quiet]
  patient := by
    intro silent
    rw [started] at silent
    contradiction
  inLead := by
    intro _
    exact inLead_append _ (counts.inLead before)
  going := by
    apply counts.going_append
    intro ends
    have long := ends.le_trailingRun
    rw [trailingRun_append_unmarked quiet, ← counts.trailing before, ← trailing] at long
    omega

end

/-! ### The frame loop -/

/-- The capture keeps the frames up to the first stop, and the samples of the frame that is
cut short if the frames run out before the speaker is done. -/
structure StopsAt (config : VadConfig) (frames : List (List Int)) (cut : List Int)
    (capture : Capture) (place : Nat) : Prop where
  first : FirstStop (isSpeech config) (hangoverFrames config) frames place
  done : EndsRun (isSpeech config) (hangoverFrames config) (frames.take place) →
    capture.pcm = (frames.take place).flatten
  short : ¬ EndsRun (isSpeech config) (hangoverFrames config) (frames.take place) →
    capture.pcm = frames.flatten ++ cut
  speech : capture.speechFrames = (frames.take place).countP (isSpeech config)

/-- What the frame loop answers when it hears these frames and then a part of one more. -/
inductive Ended (config : VadConfig) (frames : List (List Int)) (cut : List Int) :
    Bool × Capture → Prop
  | abandoned {capture : Capture} (silent : SilentLead config frames)
      (pcm : capture.pcm = (frames.take (maxLeadFrames config)).flatten) :
      Ended config frames cut (true, capture)
  | stopped {capture : Capture} (place : Nat) (spoken : ¬ SilentLead config frames)
      (stop : StopsAt config frames cut capture place) : Ended config frames cut (false, capture)

section

variable {config : VadConfig} {past : List (List Int)} {capture next : Capture}
  {frame cut : List Int}

theorem not_silentLead_of_inLead
    (inLead : ∃ frame ∈ past.take (maxLeadFrames config), isSpeech config frame = true) :
    ¬ SilentLead config past := by
  intro silent
  obtain ⟨frame, member, spoken⟩ := inLead
  rw [silent.2 frame member] at spoken
  contradiction

theorem Counts.not_silentLead (counts : Counts config past capture) :
    ¬ SilentLead config past := by
  cases before : capture.speechStarted with
  | true => exact not_silentLead_of_inLead (counts.inLead before)
  | false =>
      intro silent
      exact absurd silent.1 (Nat.not_le_of_lt (counts.patient before))

/-- The frames have run out. -/
theorem Counts.runOut (counts : Counts config past capture)
    (pcm : next.pcm = capture.pcm ++ cut) (speech : next.speechFrames = capture.speechFrames) :
    Ended config past cut (false, next) := by
  have all : past.take past.length = past := List.take_length
  apply Ended.stopped past.length counts.not_silentLead
  constructor
  · exact ⟨Nat.le_refl _, Or.inr rfl, fun earlier before => counts.going earlier before.le⟩
  · intro ends
    exact absurd ends (counts.going past.length (Nat.le_refl _))
  · intro _
    rw [pcm, counts.pcm]
  · rw [speech, counts.speech, all]

/-- The lead is over without speech. -/
theorem Counts.giveUp (counts : Counts config past capture) (rest : List (List Int))
    (quiet : isSpeech config frame = false) (before : capture.speechStarted = false)
    (pcm : next.pcm = capture.pcm ++ frame)
    (late : maxLeadFrames config ≤ capture.leadFrames + 1) :
    Ended config (past ++ frame :: rest) cut (true, next) := by
  have last : maxLeadFrames config = (past ++ [frame]).length := by
    have inside := counts.patient before
    rw [counts.lead before] at late
    rw [List.length_append, List.length_singleton]
    omega
  have lead : (past ++ frame :: rest).take (maxLeadFrames config) = past ++ [frame] := by
    rw [last, List.append_cons past frame rest, List.take_left]
  apply Ended.abandoned
  · constructor
    · rw [last, List.append_cons past frame rest]
      exact (List.prefix_append _ _).length_le
    · intro other member
      rw [lead] at member
      have silent := counts.silent_append quiet before
      exact Bool.eq_false_iff.mpr (List.any_eq_false.mp silent other member)
  · rw [lead]
    exact counts.pcm_append pcm

/-- The hangover is over. -/
theorem Counts.hangUp (counts : Counts config past capture) (rest : List (List Int))
    (quiet : isSpeech config frame = false) (before : capture.speechStarted = true)
    (pcm : next.pcm = capture.pcm ++ frame) (speech : next.speechFrames = capture.speechFrames)
    (long : hangoverFrames config ≤ capture.trailingSilence + 1) :
    Ended config (past ++ frame :: rest) cut (false, next) := by
  have here : (past ++ frame :: rest).take (past.length + 1) = past ++ [frame] := by
    rw [List.append_cons, List.take_left' (by rw [List.length_append, List.length_singleton])]
  have ends : EndsRun (isSpeech config) (hangoverFrames config) (past ++ [frame]) := by
    apply endsRun_of_le_trailingRun
    · obtain ⟨other, member, spoken⟩ := counts.inLead before
      exact ⟨other, List.mem_append_left _ (List.mem_of_mem_take member), spoken⟩
    · rw [trailingRun_append_unmarked quiet, ← counts.trailing before]
      exact long
  have inLead := inLead_append (frame :: rest) (counts.inLead before)
  apply Ended.stopped (past.length + 1) (not_silentLead_of_inLead inLead)
  constructor
  · constructor
    · rw [List.length_append, List.length_cons]
      exact Nat.add_le_add_left (Nat.le_add_left _ _) _
    · exact Or.inl (here.symm ▸ ends)
    · intro earlier inside
      rw [endsRun_take_append (Nat.le_of_lt_succ inside)]
      exact counts.going earlier (Nat.le_of_lt_succ inside)
  · intro _
    rw [here]
    exact counts.pcm_append pcm
  · intro goesOn
    exact absurd (here.symm ▸ ends) goesOn
  · rw [here]
    exact counts.speech_append quiet speech

/-- What stands behind the counters and in front of the microphone decides. -/
theorem Counts.captureLoop {encoder : Nat → EncodeOutcome} {room : Nat}
    (counts : Counts config past capture) (positive : 0 < hangoverFrames config) :
    Ended config (past ++ (heard room capture.mic).1) (heard room capture.mic).2
      (VoiceTurn.captureLoop config encoder room capture) := by
  induction room generalizing past capture with
  | zero =>
      rw [heard, List.append_nil]
      exact counts.runOut (List.append_nil _).symm rfl
  | succ room inductionHypothesis =>
      rw [heard, VoiceTurn.captureLoop]
      generalize readFully frameSamples capture.mic.splits capture.mic.samples [] = read
      obtain ⟨frame, mic⟩ := read
      dsimp only
      by_cases cut : frame.length ≠ frameSamples
      · rw [if_pos cut, if_pos cut, List.append_nil]
        exact counts.runOut rfl rfl
      obtain ⟨pcm, next, lead, speech, trailing, started⟩ :=
        takeFrame_fields encoder frame mic capture
      rw [if_neg cut, if_neg cut]
      generalize takeFrame encoder frame mic capture = taken at *
      by_cases loud : config.speechEnergyThreshold ≤ meanSq frame
      · rw [if_pos loud, List.append_cons, ← next]
        apply @inductionHypothesis (past ++ [frame])
          { taken with
            speechFrames := taken.speechFrames + 1
            trailingSilence := 0
            speechStarted := true }
        exact counts.speak positive (decide_eq_true loud) pcm (congrArg (· + 1) speech) rfl rfl
      have quiet : isSpeech config frame = false := decide_eq_false loud
      rw [if_neg loud]
      cases before : capture.speechStarted with
      | false =>
          rw [if_pos (by rw [started, before]; rfl)]
          split_ifs with late
          · exact counts.giveUp _ quiet before pcm (lead ▸ late)
          · rw [List.append_cons, ← next]
            apply @inductionHypothesis (past ++ [frame])
              { taken with leadFrames := taken.leadFrames + 1 }
            exact counts.wait quiet before pcm speech (started.trans before)
              (congrArg (· + 1) lead) (Nat.lt_of_not_le late)
      | true =>
          rw [if_neg (by rw [started, before]; decide)]
          split_ifs with long
          · exact counts.hangUp _ quiet before pcm speech (trailing ▸ long)
          · rw [List.append_cons, ← next]
            apply @inductionHypothesis (past ++ [frame])
              { taken with trailingSilence := taken.trailingSilence + 1 }
            exact counts.pause quiet before pcm speech (started.trans before)
              (congrArg (· + 1) trailing) (Nat.lt_of_not_le long)

end

/-! ### The capture -/

theorem StopsAt.within {config : VadConfig} {frames : List (List Int)} {cut : List Int}
    {capture : Capture} {place : Nat} (stop : StopsAt config frames cut capture place) :
    capture.pcm <+: frames.flatten ++ cut := by
  by_cases ends : EndsRun (isSpeech config) (hangoverFrames config) (frames.take place)
  · rw [stop.done ends]
    exact (List.take_prefix place frames).flatten.trans (List.prefix_append _ _)
  · rw [stop.short ends]

theorem Ended.within {config : VadConfig} {frames : List (List Int)} {cut : List Int}
    {result : Bool × Capture} (ended : Ended config frames cut result) :
    result.2.pcm <+: frames.flatten ++ cut := by
  cases ended with
  | abandoned silent pcm =>
      rw [pcm]
      exact (List.take_prefix _ frames).flatten.trans (List.prefix_append _ _)
  | stopped place spoken stop => exact stop.within

/-- What `_capture_utterance` owes its caller when `frames` and then `cut` are all there is
to hear before the buffer is full. -/
structure EndPoints (config : VadConfig) (frames : List (List Int)) (cut : List Int)
    (captured : Captured) : Prop where
  timeout : captured.err = .timeout ↔ SilentLead config frames
  stops : captured.err ≠ .timeout → ∃ place, StopsAt config frames cut captured.capture place ∧
    (captured.err = .ok ↔ minUtterFrames config ≤ (frames.take place).countP (isSpeech config))
  actual : captured.err = .ok → captured.actual = captured.capture.pcm.length
  disarmed : captured.capture.armed = false

/-- The counters of an armed capture. -/
theorem counts_start {config : VadConfig} {mic : Microphone} {stream : Option OpusStream}
    (hangover : 0 < hangoverFrames config) (lead : 0 < maxLeadFrames config) :
    Counts config [] (Capture.start mic stream) where
  pcm := rfl
  speech := rfl
  started := rfl
  lead _ := rfl
  trailing _ := rfl
  patient _ := lead
  inLead spoken := by contradiction
  going := by
    intro place _ ends
    rw [List.take_nil] at ends
    exact absurd ends.le_trailingRun (Nat.not_le_of_lt hangover)

/-- What follows the frame loop in `_capture_utterance`. -/
def finish (config : VadConfig) (result : Bool × Capture) : Captured :=
  if result.1 then ⟨.timeout, 0, { result.2 with armed := false }⟩
  else if result.2.speechFrames < minUtterFrames config then
    ⟨.fail, 0, { result.2 with armed := false }⟩
  else ⟨.ok, result.2.pcm.length, { result.2 with armed := false }⟩

theorem finish_pcm (config : VadConfig) (result : Bool × Capture) :
    (finish config result).capture.pcm = result.2.pcm := by
  rw [finish]
  split_ifs <;> rfl

theorem captureUtterance_armed {config : VadConfig} {encoder : Nat → EncodeOutcome}
    {mic : Microphone} {maxSamples : Nat} {stream : Option OpusStream}
    (enabled : config.enabled = true) :
    captureUtterance config encoder .ok mic maxSamples stream =
      finish config (captureLoop config encoder (maxSamples / frameSamples)
        (Capture.start mic stream)) := by
  rw [captureUtterance, if_neg (not_not.mpr rfl), if_neg (by rw [enabled]; decide), finish]
  rfl

/-- Only what the capture keeps and counts matters to where it stops. -/
theorem StopsAt.of_same {config : VadConfig} {frames : List (List Int)} {cut : List Int}
    {capture next : Capture} {place : Nat} (stop : StopsAt config frames cut capture place)
    (pcm : next.pcm = capture.pcm) (speech : next.speechFrames = capture.speechFrames) :
    StopsAt config frames cut next place where
  first := stop.first
  done ends := pcm.trans (stop.done ends)
  short goesOn := pcm.trans (stop.short goesOn)
  speech := speech.trans stop.speech

theorem Ended.finish {config : VadConfig} {frames : List (List Int)} {cut : List Int}
    {result : Bool × Capture} (ended : Ended config frames cut result) :
    EndPoints config frames cut (VoiceTurn.finish config result) := by
  cases ended with
  | abandoned silent pcm =>
      rw [VoiceTurn.finish, if_pos rfl]
      refine ⟨iff_of_true rfl silent, ?_, ?_, rfl⟩
      · intro other
        contradiction
      · intro ok
        contradiction
  | stopped place spoken stop =>
      rw [VoiceTurn.finish, if_neg Bool.false_ne_true]
      split_ifs with less
      · refine ⟨iff_of_false EspErr.noConfusion spoken, ?_, ?_, rfl⟩
        · intro _
          refine ⟨place, stop.of_same rfl rfl, iff_of_false EspErr.noConfusion ?_⟩
          rw [← stop.speech]
          exact Nat.not_le_of_lt less
        · intro ok
          contradiction
      · refine ⟨iff_of_false EspErr.noConfusion spoken, ?_, fun _ => rfl, rfl⟩
        intro _
        refine ⟨place, stop.of_same rfl rfl, iff_of_true rfl ?_⟩
        rw [← stop.speech]
        exact Nat.le_of_not_lt less

/-- The defaults of `Kconfig.projbuild`. -/
def shippedConfig : VadConfig := ⟨true, 800, 2500, 300, 30000000⟩

/-- A loud frame in two reads and an underrun behind it. -/
def brokenOff : Microphone := ⟨List.replicate 400 6000, [100, 220, 80, 320]⟩

end WallUnit.Firmware.VoiceTurn

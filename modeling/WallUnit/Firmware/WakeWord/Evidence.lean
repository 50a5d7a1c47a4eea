import Mathlib
import WallUnit.Firmware.WakeWord.Feed

/-!
Owns what `wake_word_feed` reports about one call: its first test, the tensors the frames of
the call fill, and the outcomes of the `Invoke` calls made on them. The report counts every
`Invoke`, and for one that fails it shows the score of the last that did not:
`wakeWordFeed_reports`.

Does not own what the wake task makes of a report.
-/

namespace WallUnit.Firmware.WakeWord

open WallUnit.Foundations

/-- The test in front of `wake_word_feed`: without an interpreter, a frontend or samples
nothing is fed. `loaded` stands for the first two, and a null `pcm` is `none`. -/
def refuses (loaded : Bool) (pcm : Option (List Int)) : Bool := !loaded || (pcm.getD []).isEmpty

/-- `wake_word_feed` with the test in front. -/
def wakeWordFeedCall (loaded : Bool) (frontend : Frontend) (model : StreamingModel)
    (pipeline : Pipeline) (pcm : Option (List Int)) : Feed :=
  if refuses loaded pcm then ⟨pipeline, pipeline.lastScore, 0⟩
  else wakeWordFeed frontend model pipeline (pcm.getD [])

/-! ### The Invokes of a call -/

/-- The feature frames of successive chunks. -/
def framesOf (frontend : Frontend) : Pipeline → List (List Int) → List (List Int)
  | _, [] => []
  | pipeline, chunk :: rest =>
      (process frontend chunk pipeline).1 ++
        framesOf frontend (process frontend chunk pipeline).2 rest

/-- The input tensors that frames fill, the first of them behind what it holds. -/
def tensorsFrom (stride : Nat) : List (List Int) → List (List Int) → List (List (List Int))
  | _, [] => []
  | slots, frame :: rest =>
      if (slots ++ [frame]).length < stride then tensorsFrom stride (slots ++ [frame]) rest
      else (slots ++ [frame]) :: tensorsFrom stride [] rest

/-- What `Invoke` answers on further tensors, after those of `history`. -/
def outcomesFrom (model : StreamingModel) (history : List (List (List Int))) :
    List (List (List Int)) → List (Option UInt8)
  | [] => []
  | tensor :: rest =>
      model.invoke (history ++ [tensor]) :: outcomesFrom model (history ++ [tensor]) rest

/-- The tensors that a call fills. -/
def callTensors (loaded : Bool) (frontend : Frontend) (model : StreamingModel)
    (pipeline : Pipeline) (pcm : Option (List Int)) : List (List (List Int)) :=
  if refuses loaded pcm then []
  else
    tensorsFrom model.maxStrideSteps pipeline.slots
      (framesOf frontend pipeline (pieces pcmPerChunk (pcm.getD [])))

/-- The outcomes of the call's Invokes; a failure is `none`. -/
def callOutcomes (loaded : Bool) (frontend : Frontend) (model : StreamingModel)
    (pipeline : Pipeline) (pcm : Option (List Int)) : List (Option UInt8) :=
  outcomesFrom model pipeline.invokes (callTensors loaded frontend model pipeline pcm)

/-- What `g_last_score` is after each of these Invokes. -/
def reported : UInt8 → List (Option UInt8) → List UInt8
  | _, [] => []
  | last, outcome :: rest => outcome.getD last :: reported (outcome.getD last) rest

/-! ### The front half does not touch the model's -/

/-- What the front half reads and writes. -/
def Pipeline.front (pipeline : Pipeline) : List Int × List Weighted :=
  (pipeline.input, pipeline.windows)

section

variable {frontend : Frontend} {left right : Pipeline}

theorem frontendProcessSamples_back (samples : List Int) (pipeline : Pipeline) :
    (frontendProcessSamples frontend samples pipeline).2.2.back = pipeline.back := by
  simp only [frontendProcessSamples]
  split_ifs <;> rfl

theorem processLoop_back (maxFrames fuel : Nat) (remaining : List Int) (frames : List (List Int))
    (pipeline : Pipeline) :
    (processLoop frontend maxFrames fuel remaining frames pipeline).2.back = pipeline.back := by
  induction fuel generalizing remaining frames pipeline with
  | zero => rfl
  | succ fuel inductionHypothesis =>
      have kept := @frontendProcessSamples_back frontend remaining pipeline
      simp only [processLoop]
      split_ifs
      · exact kept
      · rw [inductionHypothesis, kept]
      · exact kept
      · rw [inductionHypothesis, kept]
      · rfl

theorem frontendProcessSamples_front (same : left.front = right.front) (samples : List Int) :
    (frontendProcessSamples frontend samples left).1 =
        (frontendProcessSamples frontend samples right).1 ∧
      (frontendProcessSamples frontend samples left).2.1 =
        (frontendProcessSamples frontend samples right).2.1 ∧
      (frontendProcessSamples frontend samples left).2.2.front =
        (frontendProcessSamples frontend samples right).2.2.front := by
  simp only [Pipeline.front, Prod.mk.injEq] at same
  simp only [frontendProcessSamples, same.1, same.2]
  split_ifs
  · exact ⟨rfl, rfl, by simp only [Pipeline.front]⟩
  · exact ⟨rfl, rfl, rfl⟩

theorem processLoop_front (same : left.front = right.front) (maxFrames fuel : Nat)
    (remaining : List Int) (frames : List (List Int)) :
    (processLoop frontend maxFrames fuel remaining frames left).1 =
        (processLoop frontend maxFrames fuel remaining frames right).1 ∧
      (processLoop frontend maxFrames fuel remaining frames left).2.front =
        (processLoop frontend maxFrames fuel remaining frames right).2.front := by
  induction fuel generalizing remaining frames left right with
  | zero => exact ⟨rfl, same⟩
  | succ fuel inductionHypothesis =>
      obtain ⟨consumed, values, next⟩ := @frontendProcessSamples_front frontend _ _ same remaining
      simp only [processLoop, consumed, values]
      split_ifs
      · exact ⟨rfl, next⟩
      · exact inductionHypothesis next _ _
      · exact ⟨rfl, next⟩
      · exact inductionHypothesis next _ _
      · exact ⟨rfl, same⟩

theorem framesOf_front (same : left.front = right.front) (chunks : List (List Int)) :
    framesOf frontend left chunks = framesOf frontend right chunks := by
  induction chunks generalizing left right with
  | nil => rfl
  | cons chunk rest inductionHypothesis =>
      obtain ⟨frames, next⟩ := @processLoop_front frontend _ _ same maxFramesPerFeed chunk.length
        chunk []
      simp only [framesOf, process]
      rw [frames, inductionHypothesis next]

end

/-! ### What a run of frames reports -/

section

variable {model : StreamingModel}

/-- Two feeds agree on the model's half and on what they report. -/
structure SameReport (left right : Feed) : Prop where
  back : left.pipeline.back = right.pipeline.back
  peak : left.peak = right.peak
  steps : left.steps = right.steps

theorem SameReport.trans {first second third : Feed} (one : SameReport first second)
    (two : SameReport second third) : SameReport first third :=
  ⟨one.back.trans two.back, one.peak.trans two.peak, one.steps.trans two.steps⟩

theorem pushFrames_append (first second : List (List Int)) (feed : Feed) :
    pushFrames model (first ++ second) feed =
      pushFrames model second (pushFrames model first feed) :=
  List.foldl_append

theorem pushFrames_sameReport {left right : Feed} (same : SameReport left right)
    (frames : List (List Int)) :
    SameReport (pushFrames model frames left) (pushFrames model frames right) := by
  induction frames generalizing left right with
  | nil => exact same
  | cons frame rest inductionHypothesis =>
      apply inductionHypothesis
      have back := @pushFeatureFrame_back model _ _ same.back frame
      have fields := back
      simp only [Pipeline.back, Prod.mk.injEq] at fields
      dsimp only
      rw [fields.1, fields.2.2.2, same.peak, same.steps]
      split_ifs <;> exact ⟨back, rfl, rfl⟩

/-- A frame that leaves room in the tensor. -/
theorem pushFrames_waits {feed : Feed} {frame : List Int}
    (room : (feed.pipeline.slots ++ [frame]).length < model.maxStrideSteps) :
    pushFrames model [frame] feed =
      { feed with pipeline :=
          { feed.pipeline with
            slots := feed.pipeline.slots ++ [frame]
            pushed := feed.pipeline.pushed ++ [frame] } } := by
  have kept : feed.pipeline.slots ++ [frame] ≠ [] := by simp
  simp only [pushFrames, pushFeatureFrame, List.foldl_cons, List.foldl_nil, if_pos room,
    if_neg kept]

/-- A frame that fills the tensor counts as a step, whatever `Invoke` answers. -/
theorem pushFrames_fires {feed : Feed} {frame : List Int}
    (full : ¬ (feed.pipeline.slots ++ [frame]).length < model.maxStrideSteps) :
    let tensor := feed.pipeline.slots ++ [frame]
    let score := (model.invoke (feed.pipeline.invokes ++ [tensor])).getD feed.pipeline.lastScore
    pushFrames model [frame] feed =
      { pipeline :=
          { feed.pipeline with
            slots := []
            pushed := feed.pipeline.pushed ++ [frame]
            invokes := feed.pipeline.invokes ++ [tensor]
            lastScore := score }
        peak := if feed.peak < score then score else feed.peak
        steps := feed.steps + 1 } := by
  simp only [pushFrames, pushFeatureFrame, List.foldl_cons, List.foldl_nil, if_neg full, if_true]

theorem ite_lt_eq_max (peak score : UInt8) :
    (if peak < score then score else peak) = max peak score := by
  show _ = if peak ≤ score then score else peak
  split_ifs with above atMost atMost
  · rfl
  · exact absurd (UInt8.le_of_lt above) atMost
  · exact UInt8.le_antisymm atMost (UInt8.not_lt.mp above)
  · rfl

/-- What a run of frames reports of its Invokes. -/
theorem pushFrames_reports (frames : List (List Int)) (feed : Feed) :
    let tensors := tensorsFrom model.maxStrideSteps feed.pipeline.slots frames
    let outcomes := outcomesFrom model feed.pipeline.invokes tensors
    (pushFrames model frames feed).steps = feed.steps + outcomes.length ∧
      (pushFrames model frames feed).peak =
        (reported feed.pipeline.lastScore outcomes).foldl max feed.peak ∧
      (pushFrames model frames feed).pipeline.invokes = feed.pipeline.invokes ++ tensors := by
  induction frames generalizing feed with
  | nil => exact ⟨rfl, rfl, (List.append_nil _).symm⟩
  | cons frame rest inductionHypothesis =>
      have first : pushFrames model (frame :: rest) feed =
          pushFrames model rest (pushFrames model [frame] feed) := rfl
      rw [first]
      by_cases room : (feed.pipeline.slots ++ [frame]).length < model.maxStrideSteps
      · rw [pushFrames_waits room, tensorsFrom, if_pos room]
        exact inductionHypothesis _
      · rw [pushFrames_fires room, tensorsFrom, if_neg room]
        obtain ⟨steps, peak, invokes⟩ := inductionHypothesis (pushFrames model [frame] feed)
        rw [pushFrames_fires room] at steps peak invokes
        refine ⟨?_, ?_, ?_⟩
        · rw [steps, outcomesFrom, List.length_cons]
          dsimp only
          omega
        · rw [peak, outcomesFrom, reported, List.foldl_cons]
          dsimp only
          rw [ite_lt_eq_max]
        · rw [invokes]
          dsimp only
          rw [List.append_assoc]
          rfl

end

/-! ### What a call reports -/

section

variable {frontend : Frontend} {model : StreamingModel}

/-- The chunks of a call report what their frames do in one run. -/
theorem feedChunks_sameReport (chunks : List (List Int)) (feed : Feed) :
    SameReport (chunks.foldl (feedChunk frontend model) feed)
      (pushFrames model (framesOf frontend feed.pipeline chunks) feed) := by
  induction chunks generalizing feed with
  | nil => exact ⟨rfl, rfl, rfl⟩
  | cons chunk rest inductionHypothesis =>
      obtain ⟨input, windows, -⟩ := @pushAll_front model (process frontend chunk feed.pipeline).1
        (process frontend chunk feed.pipeline).2
      have front : (feedChunk frontend model feed chunk).pipeline.front =
          (process frontend chunk feed.pipeline).2.front := by
        rw [feedChunk_pipeline, stepChunk, Pipeline.front, input, windows]
        rfl
      have now : SameReport (feedChunk frontend model feed chunk)
          (pushFrames model (process frontend chunk feed.pipeline).1 feed) := by
        apply pushFrames_sameReport
        exact ⟨processLoop_back _ _ _ _ _, rfl, rfl⟩
      have later := inductionHypothesis (feedChunk frontend model feed chunk)
      rw [framesOf_front front] at later
      rw [List.foldl_cons, framesOf]
      apply later.trans
      rw [pushFrames_append]
      exact pushFrames_sameReport now _

/-- **The report of a call.** Every Invoke is a step, and a failed one shows the score of the
last that did not fail, which may be from before the call. -/
theorem wakeWordFeed_reports (pipeline : Pipeline) {pcm : List Int} (some : pcm ≠ []) :
    let tensors := tensorsFrom model.maxStrideSteps pipeline.slots
      (framesOf frontend pipeline (pieces pcmPerChunk pcm))
    let outcomes := outcomesFrom model pipeline.invokes tensors
    (wakeWordFeed frontend model pipeline pcm).steps = outcomes.length ∧
      (wakeWordFeed frontend model pipeline pcm).peak =
        (reported pipeline.lastScore outcomes).foldl max 0 ∧
      (wakeWordFeed frontend model pipeline pcm).pipeline.invokes =
        pipeline.invokes ++ tensors := by
  have same := @feedChunks_sameReport frontend model (pieces pcmPerChunk pcm) ⟨pipeline, 0, 0⟩
  obtain ⟨steps, peak, invokes⟩ := @pushFrames_reports model
    (framesOf frontend pipeline (pieces pcmPerChunk pcm)) ⟨pipeline, 0, 0⟩
  have back := same.back
  simp only [Pipeline.back, Prod.mk.injEq] at back
  simp only [wakeWordFeed, if_neg some]
  refine ⟨?_, same.peak.trans peak, back.2.2.1.trans invokes⟩
  rw [same.steps, steps]
  exact Nat.zero_add _

end

/-! ### When the steps are evidence -/

/-- A report of these outcomes: the steps are the Invokes that succeeded, and the peak is the
highest of their scores, or 0. -/
structure IsEvidence (outcomes : List (Option UInt8)) (feed : Feed) : Prop where
  steps : feed.steps = outcomes.reduceOption.length
  peak : feed.peak = outcomes.reduceOption.foldl max 0

theorem reported_of_isSome {outcomes : List (Option UInt8)} (last : UInt8)
    (succeed : ∀ outcome ∈ outcomes, outcome.isSome = true) :
    reported last outcomes = outcomes.reduceOption := by
  induction outcomes generalizing last with
  | nil => rfl
  | cons outcome rest inductionHypothesis =>
      obtain ⟨score, rfl⟩ := Option.isSome_iff_exists.mp (succeed outcome List.mem_cons_self)
      rw [reported, List.reduceOption_cons_of_some]
      congr 1
      apply inductionHypothesis
      intro later member
      exact succeed later (List.mem_cons_of_mem _ member)

section

variable {loaded : Bool} {frontend : Frontend} {model : StreamingModel} {pipeline : Pipeline}
  {pcm : Option (List Int)}

theorem callOutcomes_of_refuses (refused : refuses loaded pcm = true) :
    callOutcomes loaded frontend model pipeline pcm = [] := by
  rw [callOutcomes, callTensors, if_pos refused, outcomesFrom]

/-- The report of a call that is not refused; its tensors are the ones given to Invoke. -/
theorem wakeWordFeedCall_reports (accepted : ¬ refuses loaded pcm = true) :
    (wakeWordFeedCall loaded frontend model pipeline pcm).steps =
        (callOutcomes loaded frontend model pipeline pcm).length ∧
      (wakeWordFeedCall loaded frontend model pipeline pcm).peak =
        (reported pipeline.lastScore
          (callOutcomes loaded frontend model pipeline pcm)).foldl max 0 ∧
      (wakeWordFeedCall loaded frontend model pipeline pcm).pipeline.invokes =
        pipeline.invokes ++ callTensors loaded frontend model pipeline pcm := by
  have some : pcm.getD [] ≠ [] := by
    intro empty
    apply accepted
    rw [refuses, empty, List.isEmpty_nil, Bool.or_true]
  rw [wakeWordFeedCall, callOutcomes, callTensors, if_neg accepted, if_neg accepted]
  exact wakeWordFeed_reports pipeline some

end

/-- **When a report is evidence.** No Invoke of the call fails, and a call that feeds nothing
finds no score. -/
theorem wakeWordFeedCall_isEvidence_iff (loaded : Bool) (frontend : Frontend)
    (model : StreamingModel) (pipeline : Pipeline) (pcm : Option (List Int)) :
    IsEvidence (callOutcomes loaded frontend model pipeline pcm)
        (wakeWordFeedCall loaded frontend model pipeline pcm) ↔
      (∀ outcome ∈ callOutcomes loaded frontend model pipeline pcm, outcome.isSome = true) ∧
        (refuses loaded pcm = true → pipeline.lastScore = 0) := by
  by_cases refused : refuses loaded pcm = true
  · rw [callOutcomes_of_refuses refused, wakeWordFeedCall, if_pos refused]
    constructor
    · intro evidence
      exact ⟨by simp, fun _ => evidence.peak⟩
    · rintro ⟨-, quiet⟩
      exact ⟨rfl, quiet refused⟩
  · obtain ⟨steps, peak, -⟩ :=
      @wakeWordFeedCall_reports loaded frontend model pipeline pcm refused
    constructor
    · intro evidence
      constructor
      · apply List.reduceOption_length_eq_iff.mp
        rw [← evidence.steps, steps]
      · intro now
        contradiction
    · rintro ⟨succeed, -⟩
      constructor
      · rw [steps, List.reduceOption_length_eq_iff.mpr succeed]
      · rw [peak, reported_of_isSome _ succeed]

/-- A frontend whose features are 0. -/
def silentFrontend : Frontend where
  coefficients := []
  values := fun _ => List.replicate featureSize 0
  size := fun _ => List.length_replicate

/-- A model of three frames whose first `Invoke` scores 200 and whose others fail. -/
def failingModel : StreamingModel where
  maxStrideSteps := 3
  invoke := fun tensors => if tensors.length = 1 then some 200 else none

/-- One sample short of the sixth frame, the last score being 200. -/
def beforeFailure : Pipeline where
  input := List.replicate 479 0
  windows := List.replicate 5 ⟨[], 0⟩
  taken := List.replicate 1279 0
  slots := List.replicate 2 (List.replicate featureSize (-128))
  pushed := List.replicate 5 (List.replicate featureSize (-128))
  invokes := [List.replicate 3 (List.replicate featureSize (-128))]
  lastScore := 200

set_option maxRecDepth 8000 in
/-- The sixth frame makes `Invoke` fail, and the call reports a step with the score of the
first. -/
theorem wakeWordFeedCall_not_isEvidence_of_failure :
    ¬ IsEvidence (callOutcomes true silentFrontend failingModel beforeFailure (some [0]))
      (wakeWordFeedCall true silentFrontend failingModel beforeFailure (some [0])) := by
  have single : pieces pcmPerChunk [(0 : Int)] = [[0]] := pieces_of_short (by decide) (by decide)
  have frames : framesOf silentFrontend beforeFailure [[0]] =
      [List.replicate featureSize (-128)] := by decide
  have outcomes : callOutcomes true silentFrontend failingModel beforeFailure (some [0]) =
      [none] := by
    rw [callOutcomes, callTensors, if_neg (by decide), Option.getD_some, single, frames]
    decide
  intro evidence
  have reports := @wakeWordFeedCall_reports true silentFrontend failingModel beforeFailure
    (some [0]) (by decide)
  have counted := evidence.steps
  rw [reports.1, outcomes] at counted
  contradiction

end WallUnit.Firmware.WakeWord

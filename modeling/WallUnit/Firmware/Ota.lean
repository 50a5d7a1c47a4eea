import WallUnit.Firmware.Esp
import WallUnit.Foundations.Machine

/-!
Owns `ota.c`: the version string in NVS, the check for an update, the two
application slots as the rollback bootloader sees them, and the machine of
boots, checks, downloads, resets and crashes over them. The version is recorded
apart from the image, so it stays true only along runs that reset at the right
moments; `recordsRunning_of_settled` says which.

Does not own the transport: what a manifest request and a download answer is
part of the label.
-/

namespace WallUnit.Firmware.Ota

open WallUnit.Foundations

/-! ### Images and slots -/

/-- A firmware image, named by the version string it was published under. -/
structure Image where
  version : CString
deriving DecidableEq, Repr

/-- The slots under `CONFIG_BOOTLOADER_APP_ROLLBACK_ENABLE`. A freshly written
image is `staged` until the next reset and on `trial` (`PENDING_VERIFY`) until
it is marked valid. -/
inductive Slots where
  | confirmed (running : Image)
  | staged (running next : Image)
  | trial (running previous : Image)
deriving DecidableEq, Repr

namespace Slots

def running : Slots → Image
  | confirmed running => running
  | staged running _ => running
  | trial running _ => running

def isStaged : Slots → Bool
  | staged _ _ => true
  | _ => false

def isTrial : Slots → Bool
  | trial _ _ => true
  | _ => false

/-- What the bootloader does at a reset. -/
def reset : Slots → Slots
  | confirmed running => confirmed running
  | staged running next => trial next running
  | trial _ previous => confirmed previous

/-- `esp_ota_mark_app_valid_cancel_rollback`, called while `PENDING_VERIFY`. -/
def markValid : Slots → Slots
  | trial running _ => confirmed running
  | slots => slots

/-- `esp_https_ota` writing a whole image. `esp_ota_begin` refuses while the
running image is pending verification. -/
def write (image : Image) : Slots → Option Slots
  | confirmed running => some (staged running image)
  | staged running _ => some (staged running image)
  | trial _ _ => none

end Slots

/-! ### The version record -/

/-- `FW_VERSION_DEFAULT`. -/
def fwVersionDefault : CString := "0.1.0".toList

/-- `sizeof(s_current_version)`. -/
def versionBufferSize : Nat := 32

/-- `nvs_get_str` into a buffer of `size` bytes: the NUL must fit too. -/
def nvsGetStr (size : Nat) : Option CString → Option CString
  | none => none
  | some stored => if stored.length < size then some stored else none

/-- `load_version_from_nvs`. A missing namespace keeps the static initializer,
which is the same default. -/
def loadVersionFromNvs (nvs : Option CString) : CString :=
  (nvsGetStr versionBufferSize nvs).getD fwVersionDefault

/-- `GET /ota/manifest.json` after `cJSON_Parse`. A field is present when
`cJSON_IsString` holds of it. -/
inductive Manifest where
  | unreachable
  | invalidJson
  | parsed (version url : Option CString)
deriving DecidableEq, Repr

/-- What `ota_check_and_update` decides before it downloads anything. -/
inductive CheckDecision where
  | stop (err : EspErr)
  | download (version url : CString)
deriving DecidableEq, Repr

/-- `ota_check_and_update` up to the call of `esp_https_ota`. -/
def checkManifest (currentVersion : CString) : Manifest → CheckDecision
  | .unreachable => .stop .fail
  | .invalidJson => .stop .fail
  | .parsed (some version) (some url) =>
      if version = currentVersion then .stop .ok else .download version url
  | .parsed _ _ => .stop .fail

/-! ### The machine -/

/-- Where the unit stands between two resets. `written` lies between
`esp_https_ota` and `save_version_to_nvs`, `saved` between that and
`esp_restart`. -/
inductive Phase where
  | starting
  | firstCheck
  | unmarked
  | serving
  | written (version : CString)
  | saved
deriving DecidableEq, Repr

def Phase.isWritten : Phase → Bool
  | .written _ => true
  | _ => false

structure State where
  slots : Slots
  nvs : Option CString
  currentVersion : CString
  phase : Phase
deriving DecidableEq, Repr

/-- The factory image at its first boot, with empty NVS. -/
def State.factory : State where
  slots := .confirmed ⟨fwVersionDefault⟩
  nvs := none
  currentVersion := fwVersionDefault
  phase := .starting

inductive Label where
  | load
  | check (manifest : Manifest) (downloaded : Bool)
  | markValid
  | save
  | restart
  | crash
deriving DecidableEq, Repr

/-- A reset: the bootloader picks the image and RAM is initialised anew. -/
def reboot (state : State) : State where
  slots := state.slots.reset
  nvs := state.nvs
  currentVersion := fwVersionDefault
  phase := .starting

/-- Where a check that installs nothing returns to. -/
def Phase.afterCheck : Phase → Phase
  | .firstCheck => .unmarked
  | phase => phase

/-- `ota_check_and_update` up to the return of `esp_https_ota`. -/
def check (manifest : Manifest) (downloaded : Bool) (state : State) : Option State :=
  match checkManifest state.currentVersion manifest with
  | .stop _ => some { state with phase := state.phase.afterCheck }
  | .download version _ =>
      if downloaded then
        (state.slots.write ⟨version⟩).map fun slots =>
          { state with slots := slots, phase := .written version }
      else some { state with phase := state.phase.afterCheck }

def step (state : State) : Label → Option State
  | .load =>
      if state.phase = .starting then
        some { state with currentVersion := loadVersionFromNvs state.nvs, phase := .firstCheck }
      else none
  | .check manifest downloaded =>
      match state.phase with
      | .firstCheck | .unmarked | .serving => check manifest downloaded state
      | _ => none
  | .markValid =>
      if state.phase = .unmarked then
        some { state with slots := state.slots.markValid, phase := .serving }
      else none
  | .save =>
      match state.phase with
      -- `strncpy` into the 32-byte buffer; the unit restarts before anyone reads it
      | .written version =>
          some { state with
            nvs := some version
            currentVersion := version.take versionBufferSize
            phase := .saved }
      | _ => none
  | .restart => if state.phase = .saved then some (reboot state) else none
  | .crash => some (reboot state)

def otaMachine : Machine State Label where
  init := .factory
  step := step

/-! ### The record is that of the running image -/

/-- Once the version is loaded and until an update is installed, the version in
RAM is that of the running image. -/
def RecordsRunning (state : State) : Prop :=
  state.phase ≠ .starting → state.slots.isStaged = false →
    state.currentVersion = state.slots.running.version

/-- The condition on a step: a crash neither hits an image on trial nor falls
between an image and its version record, and what is installed has a version
that fits the buffer it is read back into. -/
def Settled (state : State) : Label → Prop
  | .crash => state.slots.isTrial = false ∧ state.phase.isWritten = false
  | .check (.parsed (some version) (some _)) true => version.length < versionBufferSize
  | _ => True

instance (state : State) (label : Label) : Decidable (Settled state label) := by
  unfold Settled
  split <;> infer_instance

/-- The invariant, by where the unit stands. Before an update is installed the
record reads back as the running image; afterwards it is the next image that
counts. -/
inductive Recorded : State → Prop where
  | running (slots : Slots) (nvs : Option CString) (currentVersion : CString) (phase : Phase)
      (unstaged : slots.isStaged = false) (quiet : phase.isWritten = false ∧ phase ≠ .saved)
      (record : loadVersionFromNvs nvs = slots.running.version)
      (loaded : phase ≠ .starting → currentVersion = slots.running.version) :
      Recorded ⟨slots, nvs, currentVersion, phase⟩
  | written (running : Image) (version : CString) (nvs : Option CString) (currentVersion : CString)
      (fits : version.length < versionBufferSize) :
      Recorded ⟨.staged running ⟨version⟩, nvs, currentVersion, .written version⟩
  | saved (running : Image) (version currentVersion : CString)
      (fits : version.length < versionBufferSize) :
      Recorded ⟨.staged running ⟨version⟩, some version, currentVersion, .saved⟩

theorem loadVersionFromNvs_of_fits {version : CString} (fits : version.length < versionBufferSize) :
    loadVersionFromNvs (some version) = version := by
  simp only [loadVersionFromNvs, nvsGetStr, if_pos fits, Option.getD_some]

/-- What a check can do, guards included. -/
theorem check_cases {state next : State} {manifest : Manifest} {downloaded : Bool}
    (checked : check manifest downloaded state = some next) :
    next = { state with phase := state.phase.afterCheck } ∨
      ∃ version url slots, manifest = .parsed (some version) (some url) ∧ downloaded = true ∧
        version ≠ state.currentVersion ∧ state.slots.write ⟨version⟩ = some slots ∧
        next = { state with slots := slots, phase := .written version } := by
  unfold check at checked
  cases manifest with
  | unreachable => exact Or.inl (Option.some.inj checked).symm
  | invalidJson => exact Or.inl (Option.some.inj checked).symm
  | parsed version url =>
      cases version with
      | none => exact Or.inl (Option.some.inj checked).symm
      | some version =>
          cases url with
          | none => exact Or.inl (Option.some.inj checked).symm
          | some url =>
              by_cases same : version = state.currentVersion
              · simp only [checkManifest, if_pos same] at checked
                exact Or.inl (Option.some.inj checked).symm
              · simp only [checkManifest, if_neg same] at checked
                cases downloaded with
                | false => exact Or.inl (Option.some.inj checked).symm
                | true =>
                    obtain ⟨slots, wrote, rfl⟩ := Option.map_eq_some_iff.mp checked
                    exact Or.inr ⟨version, url, slots, rfl, rfl, same, wrote, rfl⟩

theorem recorded_factory : Recorded .factory :=
  .running _ _ _ _ rfl (by decide) rfl (by simp)

theorem Recorded.recordsRunning {state : State} (recorded : Recorded state) :
    RecordsRunning state := by
  intro started unstaged
  cases recorded with
  | running slots nvs currentVersion phase _ _ record loaded => exact loaded started
  | written => contradiction
  | saved => contradiction

/-- A reset at a settled moment boots an image whose version NVS reads back. -/
theorem Recorded.reboot {state : State} (recorded : Recorded state)
    (verified : state.slots.isTrial = false) (complete : state.phase.isWritten = false) :
    Recorded (reboot state) := by
  cases recorded with
  | running slots nvs currentVersion phase unstaged quiet record loaded =>
      cases slots with
      | confirmed running => exact .running _ _ _ _ rfl (by simp [Phase.isWritten]) record (by simp)
      | staged running next => contradiction
      | trial running previous => contradiction
  | written => contradiction
  | saved running version currentVersion fits =>
      have record := loadVersionFromNvs_of_fits fits
      exact .running _ _ _ _ rfl (by simp [Phase.isWritten]) record (by simp)

theorem afterCheck_quiet {phase : Phase} (quiet : phase.isWritten = false ∧ phase ≠ .saved) :
    phase.afterCheck.isWritten = false ∧ phase.afterCheck ≠ .saved := by
  cases phase with
  | firstCheck => exact ⟨rfl, by simp [Phase.afterCheck]⟩
  | _ => exact quiet

theorem Recorded.check {state next : State} {manifest : Manifest} {downloaded : Bool}
    (recorded : Recorded state) (quiet : state.phase.isWritten = false ∧ state.phase ≠ .saved)
    (started : state.phase ≠ .starting) (settled : Settled state (.check manifest downloaded))
    (checked : check manifest downloaded state = some next) : Recorded next := by
  cases recorded with
  | written => exact absurd quiet.1 (by simp [Phase.isWritten])
  | saved => exact absurd rfl quiet.2
  | running slots nvs currentVersion phase unstaged _ record loaded =>
      have current := loaded started
      rcases check_cases checked with rfl | ⟨version, url, written, rfl, rfl, fresh, wrote, rfl⟩
      · exact .running _ _ _ _ unstaged (afterCheck_quiet quiet) record (fun _ => current)
      · cases slots with
        | confirmed running =>
            obtain rfl := Option.some.inj wrote
            exact .written running version nvs currentVersion settled
        | staged running next => contradiction
        | trial running previous => contradiction

theorem step_recorded {state next : State} {label : Label} (recorded : Recorded state)
    (settled : Settled state label) (stepped : step state label = some next) :
    Recorded next := by
  cases label with
  | load =>
      simp only [step] at stepped
      split_ifs at stepped with starting
      obtain rfl := Option.some.inj stepped
      cases recorded with
      | running slots nvs currentVersion phase unstaged quiet record loaded =>
          exact .running _ _ _ _ unstaged (by simp [Phase.isWritten]) record (fun _ => record)
      | written => contradiction
      | saved => contradiction
  | check manifest downloaded =>
      cases here : state.phase with
      | firstCheck | unmarked | serving =>
          simp only [step, here] at stepped
          exact recorded.check (by simp [here, Phase.isWritten]) (by simp [here]) settled stepped
      | starting | written | saved => simp [step, here] at stepped
  | markValid =>
      simp only [step] at stepped
      split_ifs at stepped with unmarked
      obtain rfl := Option.some.inj stepped
      cases recorded with
      | running slots nvs currentVersion phase unstaged quiet record loaded =>
          have current : currentVersion = slots.running.version :=
            loaded fun starting => absurd (unmarked.symm.trans starting) nofun
          have serving : Phase.serving.isWritten = false ∧ Phase.serving ≠ .saved := by decide
          cases slots with
          | confirmed running => exact .running _ _ _ _ rfl serving record (fun _ => current)
          | staged running next => contradiction
          | trial running previous => exact .running _ _ _ _ rfl serving record (fun _ => current)
      | written => contradiction
      | saved => contradiction
  | save =>
      cases recorded with
      | running slots nvs currentVersion phase unstaged quiet record loaded =>
          cases phase with
          | written version => exact absurd quiet.1 (by simp [Phase.isWritten])
          | _ => contradiction
      | written running version nvs currentVersion fits =>
          obtain rfl := Option.some.inj stepped
          exact .saved running version _ fits
      | saved => contradiction
  | restart =>
      simp only [step] at stepped
      split_ifs at stepped with saved
      obtain rfl := Option.some.inj stepped
      cases recorded with
      | running slots nvs currentVersion phase unstaged quiet record loaded =>
          exact absurd saved quiet.2
      | written => contradiction
      | saved running version currentVersion fits =>
          exact (Recorded.saved running version currentVersion fits).reboot rfl rfl
  | crash =>
      obtain rfl := Option.some.inj stepped
      exact recorded.reboot settled.1 settled.2

/-- Along runs whose every step is settled, the recorded version is that of the
running image in every state reached. -/
theorem recordsRunning_of_settled {labels : List Label} {final : State}
    (along : otaMachine.Along Settled otaMachine.init labels)
    (ran : otaMachine.run labels = some final) : RecordsRunning final :=
  (Machine.invariant_along recorded_factory
    (fun _ _ _ recorded settled stepped => step_recorded recorded settled stepped) along
    ran).recordsRunning

/-- An update to `0.2.0` that boots and is marked valid. -/
def updateRun : List Label :=
  [.load, .check (.parsed (some "0.2.0".toList) (some "u".toList)) true, .save, .restart, .load,
    .check (.parsed (some "0.2.0".toList) (some "u".toList)) true, .markValid]

/-- The same update, with a crash before the new image is marked valid. -/
def rollbackRun : List Label :=
  [.load, .check (.parsed (some "0.2.0".toList) (some "u".toList)) true, .save, .restart, .crash,
    .load]

theorem recordsRunning_of_updateRun :
    ∃ final, otaMachine.run updateRun = some final ∧ RecordsRunning final ∧
      final.slots.running = ⟨"0.2.0".toList⟩ := by
  have ran : otaMachine.run updateRun = some ⟨.confirmed ⟨"0.2.0".toList⟩, some "0.2.0".toList,
      "0.2.0".toList, .serving⟩ := by decide
  exact ⟨_, ran, recordsRunning_of_settled (by decide) ran, rfl⟩

theorem recordsRunning_not_of_rollbackRun :
    ¬ ∀ (labels : List Label) (final : State), otaMachine.run labels = some final →
      RecordsRunning final := by
  intro always
  have ran : otaMachine.run rollbackRun = some ⟨.confirmed ⟨fwVersionDefault⟩,
      some "0.2.0".toList, "0.2.0".toList, .firstCheck⟩ := by decide
  have records := always rollbackRun _ ran (by decide) rfl
  exact absurd records (by decide)

end WallUnit.Firmware.Ota

import HaPanel.Text.Bytes

/-!
# The update of the panel

`perform_github_ota` starts the download of the main binary in the background, watches it for at
most 60 seconds, and later moves the file over the running binary.  The loop has two exits, and
only one of them looks at the size and at the `curl` process; what follows only asks whether the
file exists.  `installs_complete_iff` says which downloads end in a complete binary, and
`slow_download_is_installed` shows one that does not.  The three files are replaced one after the
other, and only the last step is undone when it fails: `fails_cleanly_iff` says which failed updates
leave the installed files as they were.

The download is a sequence of states, one for each instant: the `n`-th poll of the loop is at
instant `n`.
-/

namespace HaPanel

namespace Panel

open Text

/-! ### The download -/

/-- The state of the `curl` process. -/
inductive CurlState where
  | running
  | exited (success : Bool)
  deriving DecidableEq

/-- The download at one instant. -/
structure DownloadState where
  /-- `ha_panel.tmp`. -/
  file : Option Bytes
  curl : CurlState
  deriving DecidableEq

/-- The states of a download, one for each instant. -/
structure Download where
  state : ℕ → DownloadState
  /-- Nothing happens to the download once `curl` has exited. -/
  settled : ∀ {n success}, (state n).curl = .exited success → state (n + 1) = state n
  /-- The file does not vanish. -/
  kept : ∀ {n}, (state n).file.isSome → (state (n + 1)).file.isSome

/-- `curl` has exited successfully, and the file has at least the expected size. -/
def DownloadState.Complete (expected : ℕ) (d : DownloadState) : Prop :=
  d.curl = .exited true ∧ ∃ content ∈ d.file, expected ≤ content.length

namespace Download

variable {D : Download}

theorem state_eq_of_exited {n m : ℕ} {success : Bool} (h : (D.state n).curl = .exited success)
    (hle : n ≤ m) : D.state m = D.state n := by
  induction m, hle using Nat.le_induction with
  | base => rfl
  | succ m hle ih => rw [← ih, D.settled (ih ▸ h)]

theorem isSome_of_le {n m : ℕ} (h : (D.state n).file.isSome) (hle : n ≤ m) :
    (D.state m).file.isSome := by
  induction m, hle using Nat.le_induction with
  | base => exact h
  | succ m hle ih => exact D.kept ih

/-- A download is complete at an instant exactly if it was complete at some instant before. -/
theorem complete_iff_exists (expected m : ℕ) :
    (D.state m).Complete expected ↔ ∃ n ≤ m, (D.state n).Complete expected := by
  constructor
  · intro h
    exact ⟨m, le_rfl, h⟩
  · rintro ⟨n, hle, h⟩
    rwa [state_eq_of_exited h.1 hle]

end Download

/-! ### The function -/

/-- A size as `parse_json_int_value` returns it. -/
abbrev AssetSize := {n : ℕ // n < 2 ^ 63}

/-- What `perform_github_ota` reads of `g_latest_release_info`. -/
structure ReleaseInfo where
  haPanelUrl : Bytes := []
  haPanelSize : AssetSize := ⟨0, by decide⟩
  mwwWorkerUrl : Bytes := []
  modelUrl : Bytes := []
  deriving DecidableEq

/-- The size the loop waits for.  It is below `2 ^ 63`, so the conversion to `off_t` keeps it. -/
def ReleaseInfo.expected (info : ReleaseInfo) : ℕ :=
  if info.haPanelSize.1 > 0 then info.haPanelSize else 3280000

/-- The files an update replaces. -/
structure Disk where
  haPanel : Option Bytes
  haPanelOld : Option Bytes
  mwwWorker : Option Bytes
  model : Option Bytes
  deriving DecidableEq

/-- What comes of the download of one of the other two assets, which the function waits for. -/
structure AssetOutcome where
  /-- `curl` exits with status 0. -/
  success : Bool
  /-- The temporary file afterwards. -/
  tmp : Option Bytes
  /-- Renaming the temporary file succeeds. -/
  rename : Bool
  deriving DecidableEq

/-- Everything an update finds outside of the panel. -/
structure OtaEnv where
  /-- What `check_github_release` finds. -/
  release : Option ReleaseInfo
  download : Download
  /-- Another `curl` process is running at an instant, which `pidof curl` does not tell from the
  download. -/
  otherCurl : ℕ → Bool
  /-- The number of polls before the 60 seconds are over. -/
  polls : ℕ
  /-- The instants between the end of the loop and the existence check. -/
  checkDelay : ℕ
  /-- The instants between the existence check and the renaming of the main binary, in which the
  other two assets are downloaded. -/
  installDelay : ℕ
  mwwWorker : AssetOutcome
  model : AssetOutcome
  /-- Renaming `ha_panel` to `ha_panel.old` succeeds if there is an `ha_panel`. -/
  renameOld : Bool
  /-- Renaming `ha_panel.tmp` to `ha_panel` succeeds if there is an `ha_panel.tmp`. -/
  renameNew : Bool
  /-- Renaming `ha_panel.old` back succeeds if there is an `ha_panel.old`. -/
  renameBack : Bool

structure OtaOutcome where
  /-- The value returned.  The function does not return if `execv` succeeds; this is `true`. -/
  returned : Bool
  /-- The download when `ha_panel.tmp` was renamed to `ha_panel`, if it was. -/
  installed : Option DownloadState
  disk : Disk

/-- The condition of the `break` in the loop, at one instant. -/
def breaks (D : Download) (otherCurl : ℕ → Bool) (expected n : ℕ) : Bool :=
  match (D.state n).file with
  | none => false
  | some content =>
    expected ≤ content.length && !((D.state n).curl == .running || otherCurl n)

/-- The instant at which the loop ends, when it is at instant `n` and `k` polls are left. -/
def waitForDownload (D : Download) (otherCurl : ℕ → Bool) (expected : ℕ) : ℕ → ℕ → ℕ
  | 0, n => n
  | k + 1, n =>
    if breaks D otherCurl expected n then n else waitForDownload D otherCurl expected k (n + 1)

/-- The file of an asset after its download. -/
def AssetOutcome.install (o : AssetOutcome) (url : Bytes) (old : Option Bytes) : Option Bytes :=
  if url = [] then old
  else if o.success && o.tmp.isSome && o.rename then o.tmp else old

/-- The release info, fetched if there is none yet. -/
def OtaEnv.releaseInfo (env : OtaEnv) (cached : ReleaseInfo) : Option ReleaseInfo :=
  if cached.haPanelUrl = [] then env.release else some cached

def performGithubOta (env : OtaEnv) (cached : ReleaseInfo) (disk : Disk) : OtaOutcome :=
  match env.releaseInfo cached with
  | none => ⟨false, none, disk⟩
  | some info =>
    let stop := waitForDownload env.download env.otherCurl info.expected env.polls 0
    let check := stop + env.checkDelay
    if (env.download.state check).file = none then ⟨false, none, disk⟩
    else
      let mwwWorker := env.mwwWorker.install info.mwwWorkerUrl disk.mwwWorker
      let model := env.model.install info.modelUrl disk.model
      let moved := env.renameOld && disk.haPanel.isSome
      let haPanel := if moved then none else disk.haPanel
      let haPanelOld := if moved then disk.haPanel else disk.haPanelOld
      let d := env.download.state (check + env.installDelay)
      if env.renameNew && d.file.isSome then ⟨true, some d, ⟨d.file, haPanelOld, mwwWorker, model⟩⟩
      else if env.renameBack && haPanelOld.isSome then
        ⟨false, none, ⟨haPanelOld, none, mwwWorker, model⟩⟩
      else ⟨false, none, ⟨haPanel, haPanelOld, mwwWorker, model⟩⟩

/-! ### The loop -/

theorem exited_of_breaks {D : Download} {otherCurl : ℕ → Bool} {expected n : ℕ}
    (h : breaks D otherCurl expected n = true) : ∃ success, (D.state n).curl = .exited success := by
  unfold breaks at h
  split at h
  · cases h
  · cases hcurl : (D.state n).curl with
    | running => simp [hcurl] at h
    | exited success => exact ⟨success, rfl⟩

/-- The loop ends with a `break`, or with the last poll. -/
theorem waitForDownload_cases (D : Download) (otherCurl : ℕ → Bool) (expected k n : ℕ) :
    (waitForDownload D otherCurl expected k n ≤ n + k ∧
      breaks D otherCurl expected (waitForDownload D otherCurl expected k n) = true) ∨
    waitForDownload D otherCurl expected k n = n + k := by
  induction k generalizing n with
  | zero => exact .inr rfl
  | succ k ih =>
    unfold waitForDownload
    split_ifs with hbreak
    · exact .inl ⟨by omega, hbreak⟩
    · rcases ih (n + 1) with ⟨hle, h⟩ | h
      · exact .inl ⟨by omega, h⟩
      · exact .inr (by omega)

/-- Whether the file exists at the check, and whether the download is complete at the renaming, can
be told from the instants at which these are due after a full wait. -/
theorem waitForDownload_late (D : Download) (otherCurl : ℕ → Bool) (expected polls delay : ℕ) :
    let stop := waitForDownload D otherCurl expected polls 0
    ((D.state (stop + delay)).file = none ↔ (D.state (polls + delay)).file = none) ∧
      ((D.state (stop + delay)).Complete expected ↔
        (D.state (polls + delay)).Complete expected) := by
  intro stop
  rcases waitForDownload_cases D otherCurl expected polls 0 with ⟨hle, hbreak⟩ | hend
  · -- after a `break` the download does not change any more
    obtain ⟨success, hexit⟩ := exited_of_breaks hbreak
    have h₁ : D.state (stop + delay) = D.state stop :=
      Download.state_eq_of_exited hexit (Nat.le_add_right _ _)
    have h₂ : D.state (polls + delay) = D.state stop :=
      Download.state_eq_of_exited hexit (by omega)
    rw [h₁, h₂]
    exact ⟨Iff.rfl, Iff.rfl⟩
  · have hstop : stop = polls := by omega
    rw [hstop]
    exact ⟨Iff.rfl, Iff.rfl⟩

/-! ### What gets installed -/

/-- What is installed is a complete download. -/
def InstallsComplete (env : OtaEnv) (cached : ReleaseInfo) (disk : Disk) : Prop :=
  ∀ info ∈ env.releaseInfo cached, ∀ d ∈ (performGithubOta env cached disk).installed,
    d.Complete info.expected

/-- What is installed: the download at the instant of the renaming, whatever it is. -/
theorem installed_eq (env : OtaEnv) (cached : ReleaseInfo) (disk : Disk) {info : ReleaseInfo}
    (hinfo : env.releaseInfo cached = some info) :
    let check := waitForDownload env.download env.otherCurl info.expected env.polls 0 +
      env.checkDelay
    (performGithubOta env cached disk).installed =
      if (env.download.state check).file.isSome && env.renameNew then
        some (env.download.state (check + env.installDelay))
      else none := by
  intro check
  unfold performGithubOta
  rw [hinfo]
  cases hfile : (env.download.state check).file with
  | none => simp [check, hfile]
  | some content =>
    have hlater : (env.download.state (check + env.installDelay)).file.isSome :=
      Download.isSome_of_le (n := check) (by rw [hfile]; rfl) (Nat.le_add_right _ _)
    cases hnew : env.renameNew with
    | true => simp [check, hfile, hlater]
    | false =>
      simp only [check, hfile]
      split_ifs <;> simp_all

/-- **Which updates install a complete binary only**: those whose download has exited successfully
with the expected size by the instant at which the renaming is due after a full wait, besides those
that install nothing because there is no release, no file at the existence check, or the renaming
fails. -/
theorem installs_complete_iff (env : OtaEnv) (cached : ReleaseInfo) (disk : Disk) :
    InstallsComplete env cached disk ↔
      ∀ info ∈ env.releaseInfo cached,
        (env.download.state (env.polls + env.checkDelay)).file = none ∨ env.renameNew = false ∨
          ∃ n ≤ env.polls + env.checkDelay + env.installDelay,
            (env.download.state n).Complete info.expected := by
  unfold InstallsComplete
  refine forall₂_congr fun info hinfo => ?_
  rw [installed_eq env cached disk hinfo, ← Download.complete_iff_exists]
  have hfile := (waitForDownload_late env.download env.otherCurl info.expected env.polls
    env.checkDelay).1
  have hcomplete := (waitForDownload_late env.download env.otherCurl info.expected env.polls
    (env.checkDelay + env.installDelay)).2
  rw [← Nat.add_assoc, ← Nat.add_assoc] at hcomplete
  rw [← hfile, ← hcomplete]
  cases (env.download.state (waitForDownload env.download env.otherCurl info.expected env.polls 0 +
    env.checkDelay)).file <;> cases env.renameNew <;> simp

/-- A download that has written one byte when the 60 seconds are over. -/
def slowDownload : Download where
  state _ := ⟨some [0x7f], .running⟩
  settled _ := rfl
  kept h := h

/-- An update in which everything but the main download goes well. -/
def slowUpdate : OtaEnv where
  release := none
  download := slowDownload
  otherCurl _ := false
  polls := 600
  checkDelay := 0
  installDelay := 100
  mwwWorker := ⟨true, some [0x7f], true⟩
  model := ⟨true, some [0x18], true⟩
  renameOld := true
  renameNew := true
  renameBack := true

/-- The release of the update. -/
def slowRelease : ReleaseInfo where
  haPanelUrl := str "https://host/ha_panel"
  haPanelSize := ⟨3280000, by decide⟩
  mwwWorkerUrl := str "https://host/mww_worker"
  modelUrl := str "https://host/model"

/-- **An incomplete binary is installed** while `curl` is still running. -/
theorem slow_download_is_installed :
    (performGithubOta slowUpdate slowRelease ⟨some [1], none, none, none⟩).installed =
        some ⟨some [0x7f], .running⟩ ∧
      ¬ InstallsComplete slowUpdate slowRelease ⟨some [1], none, none, none⟩ := by
  have hinst : (performGithubOta slowUpdate slowRelease ⟨some [1], none, none, none⟩).installed =
      some ⟨some [0x7f], .running⟩ := by
    have hinfo : slowUpdate.releaseInfo slowRelease = some slowRelease := rfl
    rw [installed_eq slowUpdate slowRelease _ hinfo]
    rfl
  refine ⟨hinst, fun h => ?_⟩
  obtain ⟨hexit, -⟩ := h slowRelease rfl _ hinst
  cases hexit

/-! ### What a failed update leaves behind -/

/-- The files the panel runs. -/
def Disk.installed (d : Disk) : Option Bytes × Option Bytes × Option Bytes :=
  (d.haPanel, d.mwwWorker, d.model)

/-- If the update fails, the installed files are those from before. -/
def FailsCleanly (env : OtaEnv) (cached : ReleaseInfo) (disk : Disk) : Prop :=
  (performGithubOta env cached disk).returned = false →
    (performGithubOta env cached disk).disk.installed = disk.installed

/-- An asset is not replaced, or by what it was. -/
def AssetOutcome.Keeps (o : AssetOutcome) (url : Bytes) (old : Option Bytes) : Prop :=
  url = [] ∨ o.success = false ∨ o.rename = false ∨ o.tmp = none ∨ o.tmp = old

theorem AssetOutcome.install_eq_iff {o : AssetOutcome} {url : Bytes} {old : Option Bytes} :
    o.install url old = old ↔ o.Keeps url old := by
  unfold install Keeps
  by_cases hurl : url = []
  · simp [hurl]
  · rw [if_neg hurl]
    cases hs : o.success <;> cases hr : o.rename <;> cases ht : o.tmp <;> simp [hurl]

/-- The main binary is moved aside. -/
def OtaEnv.Moves (env : OtaEnv) (disk : Disk) : Prop :=
  env.renameOld = true ∧ disk.haPanel.isSome

instance (env : OtaEnv) (disk : Disk) : Decidable (env.Moves disk) :=
  inferInstanceAs (Decidable (_ ∧ _))

/-- What is moved back is what was moved aside.  If nothing was moved aside, this may be a binary of
an update before. -/
def OtaEnv.Restores (env : OtaEnv) (disk : Disk) : Prop :=
  if env.Moves disk then env.renameBack = true
  else env.renameBack = false ∨ disk.haPanelOld = none ∨ disk.haPanelOld = disk.haPanel

/-- The main binary after an update whose last renaming fails. -/
def OtaEnv.leftBinary (env : OtaEnv) (disk : Disk) : Option Bytes :=
  let haPanel := if env.Moves disk then none else disk.haPanel
  let haPanelOld := if env.Moves disk then disk.haPanel else disk.haPanelOld
  if env.renameBack && haPanelOld.isSome then haPanelOld else haPanel

theorem OtaEnv.leftBinary_eq_iff (env : OtaEnv) (disk : Disk) :
    env.leftBinary disk = disk.haPanel ↔ env.Restores disk := by
  by_cases hmoves : env.Moves disk
  · obtain ⟨content, hcontent⟩ := Option.isSome_iff_exists.1 hmoves.2
    rw [leftBinary, Restores, if_pos hmoves, if_pos hmoves, if_pos hmoves]
    cases hback : env.renameBack <;> simp [hcontent]
  · rw [leftBinary, Restores, if_neg hmoves, if_neg hmoves, if_neg hmoves]
    cases hback : env.renameBack <;> cases hold : disk.haPanelOld <;> simp

/-- The installed files after an update whose last renaming fails. -/
theorem performGithubOta_of_renameNew_eq_false {env : OtaEnv} {cached info : ReleaseInfo}
    (disk : Disk) (hinfo : env.releaseInfo cached = some info)
    (hfile : (env.download.state (waitForDownload env.download env.otherCurl info.expected env.polls 0 +
      env.checkDelay)).file ≠ none) (hnew : env.renameNew = false) :
    (performGithubOta env cached disk).returned = false ∧
      (performGithubOta env cached disk).disk.installed =
        (env.leftBinary disk, env.mwwWorker.install info.mwwWorkerUrl disk.mwwWorker,
          env.model.install info.modelUrl disk.model) := by
  have hmoves : ((env.renameOld && disk.haPanel.isSome) = true) = env.Moves disk := by
    simp [OtaEnv.Moves]
  simp only [performGithubOta, hinfo, hfile, hnew, hmoves, OtaEnv.leftBinary, Bool.false_and,
    Bool.false_eq_true, if_false]
  split_ifs <;> exact ⟨rfl, rfl⟩

/-- **When a failed update changes nothing**: it fails before the second download, it does not fail
because the main binary can be replaced, or both other assets are kept and the main binary is moved
back. -/
theorem fails_cleanly_iff (env : OtaEnv) (cached : ReleaseInfo) (disk : Disk) :
    FailsCleanly env cached disk ↔
      ∀ info ∈ env.releaseInfo cached,
        (env.download.state (env.polls + env.checkDelay)).file = none ∨ env.renameNew = true ∨
          (env.mwwWorker.Keeps info.mwwWorkerUrl disk.mwwWorker ∧
            env.model.Keeps info.modelUrl disk.model ∧ env.Restores disk) := by
  unfold FailsCleanly
  cases hinfo : env.releaseInfo cached with
  | none => simp [performGithubOta, hinfo]
  | some info =>
    simp only [Option.mem_some_iff, forall_eq']
    have hlate := (waitForDownload_late env.download env.otherCurl info.expected env.polls
      env.checkDelay).1
    rw [← hlate]
    by_cases hfile : (env.download.state (waitForDownload env.download env.otherCurl info.expected
        env.polls 0 + env.checkDelay)).file = none
    · simp [performGithubOta, hinfo, hfile]
    · cases hnew : env.renameNew with
      | true =>
        have hlater : (env.download.state (waitForDownload env.download env.otherCurl info.expected
            env.polls 0 + env.checkDelay + env.installDelay)).file.isSome :=
          Download.isSome_of_le (Option.ne_none_iff_isSome.1 hfile) (Nat.le_add_right _ _)
        simp [performGithubOta, hinfo, hfile, hnew, hlater]
      | false =>
        obtain ⟨hret, hdisk⟩ := performGithubOta_of_renameNew_eq_false disk hinfo hfile hnew
        rw [hret, hdisk, ← AssetOutcome.install_eq_iff, ← AssetOutcome.install_eq_iff,
          ← OtaEnv.leftBinary_eq_iff]
        simp only [Disk.installed, Prod.mk.injEq, true_imp_iff, hfile, false_or, Bool.false_eq_true]
        exact and_rotate

/-- An update whose downloads succeed, and which cannot replace the main binary. -/
def failedRename : OtaEnv := { slowUpdate with renameNew := false }

/-- **A failed update has replaced an asset**: the wake word worker is the new one. -/
theorem failed_update_replaces_worker :
    (performGithubOta failedRename slowRelease ⟨some [1], none, some [2], some [3]⟩).returned = false ∧
      (performGithubOta failedRename slowRelease ⟨some [1], none, some [2], some [3]⟩).disk.mwwWorker =
        some [0x7f] ∧
      ¬ FailsCleanly failedRename slowRelease ⟨some [1], none, some [2], some [3]⟩ := by
  have hinfo : failedRename.releaseInfo slowRelease = some slowRelease := rfl
  obtain ⟨hret, hdisk⟩ := performGithubOta_of_renameNew_eq_false
    ⟨some [1], none, some [2], some [3]⟩ hinfo (by simp [failedRename, slowUpdate, slowDownload]) rfl
  have hworker := congrArg (fun d => d.2.1) hdisk
  refine ⟨hret, hworker, fun h => ?_⟩
  have hkept := congrArg (fun d => d.2.1) (h hret)
  cases hworker.symm.trans hkept

end Panel

end HaPanel

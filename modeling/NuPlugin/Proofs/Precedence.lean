import NuPlugin.Proofs.Outcome
import NuPlugin.Proofs.Output
import NuPlugin.Proofs.Session
import Mathlib.Order.WellFounded

/-!
# Which failure comes first

Much can be wrong with an installation at once: its package file, the environment, the manifest and
both commands. All ways to install look at them in one order, and the first that is wrong decides
how they end. They differ only in where the settings come from.
-/

namespace NuPlugin

/-! ## The home directory of the environment -/

namespace Config

variable {env : Environment} {value : String}

def HomeMissing (env : Environment) : Prop :=
  ∀ value, env homeVariable = some value → Text.isAllBlank value = true

theorem homeFrom_of_missing (h : HomeMissing env) :
    homeFrom env = .error (.missingVariable homeVariable) := by
  have htrim : Text.trim ((env homeVariable).getD "").toList = [] := by
    rw [Text.trim_eq_nil_iff]
    cases hvalue : env homeVariable with
    | none => simp
    | some value => exact List.all_eq_true.1 (h value hvalue)
  rw [homeFrom, htrim]

theorem homeFrom_of_value (hvalue : env homeVariable = some value)
    (hblank : Text.isAllBlank value = false) :
    homeFrom env = .ok (.ofString (String.ofList (Text.trim value.toList))) := by
  have htrim : Text.trim value.toList ≠ [] := by
    intro hnil
    have hall : Text.isAllBlank value = true := List.all_eq_true.2 (Text.trim_eq_nil_iff.1 hnil)
    rw [hblank] at hall
    cases hall
  unfold homeFrom
  rw [hvalue, Option.getD_some]
  split
  · next hnil => exact absurd hnil htrim
  · rfl

theorem homeFrom_of_trim_eq (hvalue : env homeVariable = some value) (hne : value ≠ "")
    (htrim : Text.trim value.toList = value.toList) : homeFrom env = .ok (.ofString value) := by
  have hblank : Text.isAllBlank value = false := by
    rw [Bool.eq_false_iff]
    intro hall
    rw [Text.trim_eq_nil_iff.2 (List.all_eq_true.1 hall)] at htrim
    exact hne (String.toList_eq_nil_iff.1 htrim.symm)
  rw [homeFrom_of_value hvalue hblank, htrim, String.ofList_toList]

theorem exists_value_of_not_missing (h : ¬ HomeMissing env) :
    ∃ value, env homeVariable = some value ∧ Text.isAllBlank value = false := by
  simpa [HomeMissing] using h

end Config

/-! ## Endings -/

/-- How planning or installing can end. A manifest without a name and one with an integer that is
too long are one case. A path that is refused, and a command that is refused or ends with an exit
code that is too long, break off what goes on and leave no error to tell. -/
inductive Ending where
  | invalidPath
  | missingVariable
  | refusedPath
  | unreadableManifest
  | invalidManifest
  | buildBrokenOff
  | buildFailed
  | registrationBrokenOff
  | registrationFailed
  | success
  deriving DecidableEq

namespace Ending

def rank : Ending → Nat
  | .invalidPath => 0
  | .missingVariable => 1
  | .refusedPath => 2
  | .unreadableManifest => 3
  | .invalidManifest => 4
  | .buildBrokenOff => 5
  | .buildFailed => 6
  | .registrationBrokenOff => 7
  | .registrationFailed => 8
  | .success => 9

def IsEarly (e : Ending) : Prop := e.rank < buildBrokenOff.rank

instance : DecidablePred IsEarly :=
  fun e => inferInstanceAs (Decidable (e.rank < buildBrokenOff.rank))

/-- What is broken off once so many commands were run. -/
def brokenOff : Nat → Ending
  | 0 => .refusedPath
  | 1 => .buildBrokenOff
  | _ => .registrationBrokenOff

end Ending

def Failure.ending? (f : Failure) (started : Nat) : Option Ending :=
  match f with
  | .install (.invalidPath _) => some .invalidPath
  | .install (.missingVariable _) => some .missingVariable
  | .install (.unreadableManifest _ _) => some .unreadableManifest
  | .install (.invalidManifest _ _) => some .invalidManifest
  | .integerTooLong _ => some .invalidManifest
  | .install (.commandFailed .build _ _) => some .buildFailed
  | .install (.commandFailed .registration _ _) => some .registrationFailed
  | .exitCodeTooLong => some (.brokenOff started)
  | .refused _ => some (.brokenOff started)
  | _ => none

/-- How the execution ended. Only where it broke off do the commands that it ran count. -/
def Execution.ending {α : Type} (e : Execution α) : Option Ending :=
  match e.outcome with
  | .error f => f.ending? e.calls.length
  | .ok _ => some .success

theorem Reply.ending?_of_breakdown? {reply : Reply} {f : Failure}
    (h : reply.breakdown? = some f) (started : Nat) :
    f.ending? started = some (.brokenOff started) := by
  cases reply with
  | exited code stdout stderr =>
    obtain ⟨-, rfl⟩ := breakdown?_exited_eq_some.1 h
    rfl
  | notStarted e => cases h
  | refused reason =>
    cases h
    rfl

theorem Manifest.packageName_of_no_name {files : Files} {path : Path} {bytes : List UInt8}
    (hcontent : contentAt files path = .bytes bytes)
    (h : ∀ s name, bytes = Text.Utf8.encode s → ¬ Gives s name) :
    ∃ f, packageName files path = .error f ∧ f.ending? 0 = some .invalidManifest := by
  rw [packageName_of_bytes hcontent]
  cases hname : nameInBytes bytes with
  | ok name =>
    have hgiven : packageName files path = .ok name := by
      rw [packageName_of_bytes hcontent, hname]
      rfl
    obtain ⟨s, hbytes, hgives⟩ := packageName_eq_ok_iff.1 hgiven
    rw [hcontent] at hbytes
    exact absurd hgives (h s name (FileContent.bytes.inj hbytes))
  | error refusal => cases refusal <;> exact ⟨_, rfl, rfl⟩

/-! ## Jobs -/

/-- All that an installation depends on. Without settings it takes those of the environment. -/
structure Job where
  settings : Option Config
  env : Environment
  files : Files
  runner : Runner
  file : PackageFile
  queue : List Reply

namespace Job

def execution (j : Job) : Execution Plan :=
  installWith j.settings j.env j.files j.runner j.file j.queue

/-- What is wrong with the job, whatever else is. Nothing has to be wrong for a success. -/
def Meets (j : Job) : Ending → Prop
  | .invalidPath => ∃ e, repoRoot j.file = .error e
  | .missingVariable => j.settings = none ∧ Config.HomeMissing j.env
  | .refusedPath => ∃ root reason, repoRoot j.file = .ok root ∧
      Manifest.contentAt j.files (root.join Manifest.fileName) = .refused reason
  | .unreadableManifest => ∃ root e, repoRoot j.file = .ok root ∧
      Manifest.contentAt j.files (root.join Manifest.fileName) = .unreadable e
  | .invalidManifest => ∃ root bytes, repoRoot j.file = .ok root ∧
      Manifest.contentAt j.files (root.join Manifest.fileName) = .bytes bytes ∧
      ∀ s name, bytes = Text.Utf8.encode s → ¬ Manifest.Gives s name
  | .buildBrokenOff => ∃ f, (replyAt j.queue 0).breakdown? = some f
  | .buildFailed => ¬ (replyAt j.queue 0).EndsWell
  | .registrationBrokenOff => ∃ f, (replyAt j.queue 1).breakdown? = some f
  | .registrationFailed => ¬ (replyAt j.queue 1).EndsWell
  | .success => True

def IsFirst (j : Job) (e : Ending) : Prop :=
  j.Meets e ∧ ∀ other, j.Meets other → e.rank ≤ other.rank

variable {j : Job} {e other : Ending}

theorem IsFirst.not_meets (h : j.IsFirst e) (hlt : other.rank < e.rank) : ¬ j.Meets other :=
  fun hmeets => absurd (h.2 other hmeets) (Nat.not_le.2 hlt)

theorem repoRoot_of_not_meets (h : ¬ j.Meets .invalidPath) :
    ∃ root, repoRoot j.file = .ok root := by
  cases hroot : repoRoot j.file with
  | error e => exact absurd ⟨e, hroot⟩ h
  | ok root => exact ⟨root, rfl⟩

theorem exists_execution_eq_install {root : Path} (hroot : repoRoot j.file = .ok root)
    (h : ¬ j.Meets .missingVariable) :
    ∃ c, j.execution = install c j.files j.runner j.file j.queue := by
  obtain ⟨settings, env, files, runner, file, queue⟩ := j
  cases settings with
  | some c => exact ⟨c, installWith_some c⟩
  | none =>
    have hnamed : ¬ Config.HomeMissing env := fun hmissing => h ⟨rfl, hmissing⟩
    obtain ⟨value, hvalue, hblank⟩ := Config.exists_value_of_not_missing hnamed
    exact ⟨_, installWith_none_of_home_ok hroot (Config.homeFrom_of_value hvalue hblank)⟩

theorem execution_of_packageName_error {root : Path} {f : Failure}
    (hroot : repoRoot j.file = .ok root) (hsettings : ¬ j.Meets .missingVariable)
    (hname : Manifest.packageName j.files (root.join Manifest.fileName) = .error f) :
    j.execution = .done (.error f) j.queue := by
  obtain ⟨c, hexecution⟩ := exists_execution_eq_install hroot hsettings
  rw [hexecution, install_of_plan_error (plan_of_packageName_error hroot hname)]

theorem execution_of_isEarly (h : j.IsFirst e) (hearly : e.IsEarly) :
    ∃ f, j.execution = .done (.error f) j.queue ∧ f.ending? 0 = some e := by
  -- In each case the checks before it have passed, or `e` would not be first.
  cases e with
  | invalidPath =>
    obtain ⟨error, hroot⟩ := h.1
    obtain rfl := repoRoot_error hroot
    exact ⟨_, installWith_of_repoRoot_error j.settings hroot, rfl⟩
  | missingVariable =>
    obtain ⟨hnone, hmissing⟩ := h.1
    have hpath : ¬ j.Meets .invalidPath := h.not_meets (by decide)
    obtain ⟨root, hroot⟩ := repoRoot_of_not_meets hpath
    rw [execution, hnone]
    exact ⟨_, installWith_none_of_home_error hroot (Config.homeFrom_of_missing hmissing), rfl⟩
  | refusedPath =>
    obtain ⟨root, reason, hroot, hcontent⟩ := h.1
    have hname := Manifest.packageName_of_refused hcontent
    exact ⟨_, execution_of_packageName_error hroot (h.not_meets (by decide)) hname, rfl⟩
  | unreadableManifest =>
    obtain ⟨root, error, hroot, hcontent⟩ := h.1
    have hname := Manifest.packageName_of_unreadable hcontent
    exact ⟨_, execution_of_packageName_error hroot (h.not_meets (by decide)) hname, rfl⟩
  | invalidManifest =>
    obtain ⟨root, bytes, hroot, hcontent, hnone⟩ := h.1
    obtain ⟨f, hname, hf⟩ := Manifest.packageName_of_no_name hcontent hnone
    exact ⟨f, execution_of_packageName_error hroot (h.not_meets (by decide)) hname, hf⟩
  | _ => exact absurd hearly (by decide)

theorem execution_of_checked (h : ∀ e : Ending, e.IsEarly → ¬ j.Meets e) :
    ∃ c p, plan c j.files j.file = .ok p ∧
      j.execution = p.carryOut c.host j.runner j.queue := by
  obtain ⟨root, hroot⟩ := repoRoot_of_not_meets (h .invalidPath (by decide))
  obtain ⟨c, hexecution⟩ := exists_execution_eq_install hroot (h .missingVariable (by decide))
  have hname : ∃ name,
      Manifest.packageName j.files (root.join Manifest.fileName) = .ok name := by
    cases hcontent : Manifest.contentAt j.files (root.join Manifest.fileName) with
    | unreadable error =>
      exact absurd ⟨root, error, hroot, hcontent⟩ (h .unreadableManifest (by decide))
    | refused reason => exact absurd ⟨root, reason, hroot, hcontent⟩ (h .refusedPath (by decide))
    | bytes bytes =>
      by_contra hnone
      refine h .invalidManifest (by decide) ⟨root, bytes, hroot, hcontent, ?_⟩
      rintro s name rfl hgives
      exact hnone ⟨name, Manifest.packageName_eq_ok_iff.2 ⟨s, hcontent, hgives⟩⟩
  obtain ⟨name, hname⟩ := hname
  obtain ⟨p, hplan⟩ := exists_plan_of_packageName_ok (c := c) hroot hname
  exact ⟨c, p, hplan, hexecution.trans (install_of_plan_ok hplan _ _)⟩

theorem IsFirst.checked (h : j.IsFirst e) (hlate : ¬ e.IsEarly) (other : Ending)
    (hearly : other.IsEarly) : ¬ j.Meets other :=
  h.not_meets (Nat.lt_of_lt_of_le hearly (Nat.not_lt.1 hlate))

theorem IsFirst.endsWell_of_built (h : j.IsFirst e) (hlt : Ending.buildFailed.rank < e.rank) :
    (replyAt j.queue 0).EndsWell := not_not.1 (h.not_meets hlt)

/-! ## The first ending -/

theorem IsFirst.ending (h : j.IsFirst e) : j.execution.ending = some e := by
  by_cases hearly : e.IsEarly
  · obtain ⟨f, hexecution, hf⟩ := execution_of_isEarly h hearly
    rw [hexecution]
    exact hf
  -- All checks have passed, and only the replies to the two commands are left to decide.
  obtain ⟨c, p, hplan, hexecution⟩ := execution_of_checked (h.checked hearly)
  have hbuild := buildArgv_ne_nil hplan
  have hregister := registerArgv_ne_nil hplan
  rw [hexecution]
  cases e with
  | buildBrokenOff =>
    obtain ⟨f, hf⟩ := h.1
    rw [Plan.carryOut_of_build_failed hbuild (Reply.not_endsWell_of_breakdown? hf),
      j.runner.failure_of_breakdown? _ _ hf]
    exact Reply.ending?_of_breakdown? hf 1
  | buildFailed =>
    have hunbroken : ¬ j.Meets .buildBrokenOff := h.not_meets (by decide)
    have htold : (replyAt j.queue 0).breakdown? = none :=
      Option.eq_none_iff_forall_ne_some.2 (not_exists.1 hunbroken)
    obtain ⟨result, -, -, hfailure⟩ := j.runner.exists_failure_eq .build p.buildArgv htold
    rw [Plan.carryOut_of_build_failed hbuild h.1, hfailure]
    rfl
  | registrationBrokenOff =>
    have hbuilt : (replyAt j.queue 0).EndsWell := h.endsWell_of_built (by decide)
    obtain ⟨f, hf⟩ := h.1
    rw [Plan.carryOut_of_registration_failed hbuild hregister hbuilt
      (Reply.not_endsWell_of_breakdown? hf), j.runner.failure_of_breakdown? _ _ hf]
    exact Reply.ending?_of_breakdown? hf 2
  | registrationFailed =>
    have hbuilt : (replyAt j.queue 0).EndsWell := h.endsWell_of_built (by decide)
    have hunbroken : ¬ j.Meets .registrationBrokenOff := h.not_meets (by decide)
    have htold : (replyAt j.queue 1).breakdown? = none :=
      Option.eq_none_iff_forall_ne_some.2 (not_exists.1 hunbroken)
    obtain ⟨result, -, -, hfailure⟩ := j.runner.exists_failure_eq .registration p.registerArgv htold
    rw [Plan.carryOut_of_registration_failed hbuild hregister hbuilt h.1, hfailure]
    rfl
  | success =>
    have hbuilt : (replyAt j.queue 0).EndsWell := h.endsWell_of_built (by decide)
    have hfailed : ¬ j.Meets .registrationFailed := h.not_meets (by decide)
    have hregistered : (replyAt j.queue 1).EndsWell := not_not.1 hfailed
    rw [Plan.carryOut_of_installed hbuild hregister hbuilt hregistered]
    rfl
  | _ => exact absurd (by decide) hearly

end Job

/-! ## Sessions -/

namespace Session

end Session

end NuPlugin

import NuPlugin.Proofs.Binary
import NuPlugin.Session

/-!
# What a plan depends on

Of all the files a plan reads one, and nothing of the environment or of the queue. Every setting
reaches a few parts of a plan, and where two plans from one manifest differ, a setting that reaches
the place differs too.
-/

namespace NuPlugin

/-! ## Parts and settings -/

/-- What can be compared in two plans. Command lines are compared word by word. -/
inductive Plan.Part where
  | packageFile
  | repoRoot
  | installRoot
  | manifest
  | packageName
  | binary
  | buildWord (i : Nat)
  | registerWord (i : Nat)
  deriving DecidableEq

def Plan.Part.Same (p p' : Plan) : Plan.Part → Prop
  | .packageFile => p.packageFile = p'.packageFile
  | .repoRoot => p.repoRoot = p'.repoRoot
  | .installRoot => p.installRoot = p'.installRoot
  | .manifest => p.manifest = p'.manifest
  | .packageName => p.packageName = p'.packageName
  | .binary => p.binary = p'.binary
  | .buildWord i => p.buildArgv[i]? = p'.buildArgv[i]?
  | .registerWord i => p.registerArgv[i]? = p'.registerArgv[i]?

def Setting.reaches : Setting → List Plan.Part
  | .home _ => [.installRoot, .binary, .buildWord 5, .registerWord 2]
  | .cargo _ => [.buildWord 0]
  | .host _ => [.registerWord 0]
  | .osName _ => [.binary, .registerWord 2]

namespace Config

variable {c c' : Config}

def Has (c : Config) : Setting → Prop
  | .home home => c.home = home
  | .cargo cargo => c.cargo = cargo
  | .host host => c.host = host
  | .osName osName => c.osName = osName

theorem eq_of_has_set {setting other : Setting} (h : (c.set setting).Has other)
    (hnew : ¬ c.Has other) : other = setting := by
  cases setting <;> cases other <;> simp_all [set, Has]

/-- Whatever the second has of the settings that reach a part, the first has too. -/
def AgreeFor (c c' : Config) (part : Plan.Part) : Prop :=
  ∀ setting : Setting, part ∈ setting.reaches → c'.Has setting → c.Has setting

variable {part : Plan.Part}

theorem AgreeFor.home (h : c.AgreeFor c' part) (hpart : part ∈ (Setting.home c'.home).reaches) :
    c.home = c'.home := h (.home c'.home) hpart rfl

theorem AgreeFor.osName (h : c.AgreeFor c' part)
    (hpart : part ∈ (Setting.osName c'.osName).reaches) : c.osName = c'.osName :=
  h (.osName c'.osName) hpart rfl

end Config

/-! ## Words -/

section

variable {c c' : Config} {i : Nat}

theorem buildCommand_word_of_ne {root : Path} (hprogram : i ≠ 0) (htarget : i ≠ 5) :
    (buildCommand c root)[i]? = (buildCommand c' root)[i]? := by
  have hset : buildCommand c' root =
      ((buildCommand c root).set 0 c'.cargo).set 5 c'.installRoot.toString := rfl
  rw [hset, List.getElem?_set_ne htarget.symm, List.getElem?_set_ne hprogram.symm]

theorem registerCommand_word_of_ne {binary binary' : Path} (hprogram : i ≠ 0) (hbinary : i ≠ 2) :
    (registerCommand c binary)[i]? = (registerCommand c' binary')[i]? := by
  have hset : registerCommand c' binary' =
      ((registerCommand c binary).set 0 c'.host).set 2 _ := rfl
  rw [hset, List.getElem?_set_ne hbinary.symm, List.getElem?_set_ne hprogram.symm]

end

/-! ## Plans from one manifest -/

section

variable {c c' : Config} {files files' : Files} {file : PackageFile} {p p' : Plan}
  {part : Plan.Part}

structure Plan.Resembles (p p' : Plan) : Prop where
  packageFile : p.packageFile = p'.packageFile
  repoRoot : p.repoRoot = p'.repoRoot
  manifest : p.manifest = p'.manifest
  packageName : p.packageName = p'.packageName

theorem Plan.Fits.binary_eq (h : p.Fits c files file) (h' : p'.Fits c' files' file)
    (hr : p.Resembles p') (hhome : c.home = c'.home) (hos : c.osName = c'.osName) :
    p.binary = p'.binary := by
  rw [h.binary, h'.binary, hr.packageName, Config.installRoot, Config.installRoot, hhome, hos]

theorem Plan.Part.same_of_agreeFor (h : p.Fits c files file) (h' : p'.Fits c' files' file)
    (hr : p.Resembles p') (hagree : c.AgreeFor c' part) : part.Same p p' := by
  have hinstall (hhome : c.home = c'.home) : c.installRoot = c'.installRoot := by
    rw [Config.installRoot, hhome, Config.installRoot]
  cases part with
  | packageFile => exact hr.packageFile
  | repoRoot => exact hr.repoRoot
  | manifest => exact hr.manifest
  | packageName => exact hr.packageName
  | installRoot =>
    rw [Same, h.installRoot, h'.installRoot]
    exact hinstall (hagree.home (by simp [Setting.reaches]))
  | binary =>
    exact h.binary_eq h' hr (hagree.home (by simp [Setting.reaches]))
      (hagree.osName (by simp [Setting.reaches]))
  | buildWord i =>
    rw [Same, h.buildArgv, h'.buildArgv, ← hr.repoRoot]
    by_cases hprogram : i = 0
    · subst hprogram
      exact congrArg some (hagree (.cargo c'.cargo) (by simp [Setting.reaches]) rfl)
    by_cases htarget : i = 5
    · subst htarget
      have hroot := hinstall (hagree.home (by simp [Setting.reaches]))
      exact congrArg (fun root => some root.toString) hroot
    exact buildCommand_word_of_ne hprogram htarget
  | registerWord i =>
    rw [Same, h.registerArgv, h'.registerArgv]
    by_cases hprogram : i = 0
    · subst hprogram
      exact congrArg some (hagree (.host c'.host) (by simp [Setting.reaches]) rfl)
    by_cases hbinary : i = 2
    · subst hbinary
      rw [h.binary_eq h' hr (hagree.home (by simp [Setting.reaches]))
        (hagree.osName (by simp [Setting.reaches]))]
      rfl
    exact registerCommand_word_of_ne hprogram hbinary

theorem Plan.Part.exists_setting_of_not_same (h : p.Fits c files file)
    (h' : p'.Fits c' files' file) (hr : p.Resembles p') (hpart : ¬ part.Same p p') :
    ∃ setting : Setting, c'.Has setting ∧ ¬ c.Has setting ∧ part ∈ setting.reaches := by
  by_contra hnone
  refine hpart (same_of_agreeFor h h' hr fun setting hreaches hhas => ?_)
  by_contra hnew
  exact hnone ⟨setting, hhas, hnew, hreaches⟩

theorem Manifest.packageName_congr {path : Path}
    (h : contentAt files path = contentAt files' path) :
    packageName files path = packageName files' path := by
  unfold packageName
  rw [show (files path.toString).getD _ = _ from h]
  rfl

theorem Plan.Fits.resembles (h : p.Fits c files file) (h' : p'.Fits c' files' file)
    (hsame : Manifest.contentAt files p.manifest = Manifest.contentAt files' p.manifest) :
    p.Resembles p' := by
  have hroot : p.repoRoot = p'.repoRoot := Except.ok.inj (h.repoRoot.symm.trans h'.repoRoot)
  have hmanifest : p.manifest = p'.manifest := by rw [h.manifest, h'.manifest, hroot]
  have hname : .ok p.packageName = Manifest.packageName files' p'.manifest := by
    rw [← h.packageName, Manifest.packageName_congr hsame, hmanifest]
  exact ⟨h.packageFile.trans h'.packageFile.symm, hroot, hmanifest,
    Except.ok.inj (hname.trans h'.packageName)⟩

/-- The same is found at the one place where planning looks, if it comes to that. -/
def SameManifest (files files' : Files) (file : PackageFile) : Prop :=
  ∀ root, repoRoot file = .ok root →
    Manifest.contentAt files (root.join Manifest.fileName) =
      Manifest.contentAt files' (root.join Manifest.fileName)

theorem plan_cases_of_sameManifest (c c' : Config) (h : SameManifest files files' file) :
    (∃ f, plan c files file = .error f ∧ plan c' files' file = .error f) ∨
      ∃ p p', plan c files file = .ok p ∧ plan c' files' file = .ok p' ∧ p.Resembles p' := by
  cases hroot : repoRoot file with
  | error e => exact .inl ⟨_, plan_of_repoRoot_error hroot, plan_of_repoRoot_error hroot⟩
  | ok root =>
    have hsame := Manifest.packageName_congr (h root hroot)
    cases hname : Manifest.packageName files (root.join Manifest.fileName) with
    | error f =>
      exact .inl ⟨f, plan_of_packageName_error hroot hname,
        plan_of_packageName_error hroot (hsame ▸ hname)⟩
    | ok name =>
      obtain ⟨p, hp⟩ := exists_plan_of_packageName_ok (c := c) hroot hname
      obtain ⟨p', hp'⟩ := exists_plan_of_packageName_ok (c := c') hroot (hsame ▸ hname)
      have hfits := plan_eq_ok_iff.1 hp
      refine .inr ⟨p, p', hp, hp', hfits.resembles (plan_eq_ok_iff.1 hp') ?_⟩
      rw [hfits.manifest]
      exact h _ hfits.repoRoot

end

/-! ## Two sessions -/

namespace Session

theorem step_plan_outcome (s : Session) (file : PackageFile) :
    (s.step (.plan file)).2.outcome = (plan s.config s.files file).map .planned := by
  rw [step, carry]
  cases plan s.config s.files file <;> rfl

/-- How the plans of one package file in two sessions compare. -/
structure PlansAlike (s s' : Session) (p p' : Plan) : Prop where
  resembles : p.Resembles p'
  reached : ∀ part : Plan.Part, ¬ part.Same p p' →
    ∃ setting : Setting, s'.config.Has setting ∧ ¬ s.config.Has setting ∧ part ∈ setting.reaches
  reached_by_one : ∀ setting : Setting, s'.config = s.config.set setting →
    ∀ part : Plan.Part, ¬ part.Same p p' → part ∈ setting.reaches

/-- Sessions that agree on one manifest plan alike, whatever else is in them. Both fail in the same
way, or the plans differ only where the settings do. -/
theorem plan_reads_manifest (s s' : Session) (file : PackageFile) :
    (SameManifest s.files s'.files file →
      (∃ f, (s.step (.plan file)).2.outcome = .error f ∧
        (s'.step (.plan file)).2.outcome = .error f) ∨
      ∃ p p', (s.step (.plan file)).2.outcome = .ok (.planned p) ∧
        (s'.step (.plan file)).2.outcome = .ok (.planned p') ∧ s.PlansAlike s' p p') ∧
    ∀ e, repoRoot file = .error e →
      (s.step (.plan file)).2.outcome = .error (.install e) ∧
        (s'.step (.plan file)).2.outcome = .error (.install e) := by
  simp only [step_plan_outcome]
  refine ⟨fun h => ?_, fun e hroot => ?_⟩
  · obtain ⟨f, hf, hf'⟩ | ⟨p, p', hp, hp', hr⟩ := plan_cases_of_sameManifest s.config s'.config h
    · exact .inl ⟨f, by rw [hf, map_error], by rw [hf', map_error]⟩
    · have hfits := plan_eq_ok_iff.1 hp
      have hfits' := plan_eq_ok_iff.1 hp'
      have hreached (part : Plan.Part) (hpart : ¬ part.Same p p') :=
        Plan.Part.exists_setting_of_not_same hfits hfits' hr hpart
      refine .inr ⟨p, p', by rw [hp, map_ok], by rw [hp', map_ok], hr, hreached, ?_⟩
      intro setting hset part hpart
      obtain ⟨other, hhas, hnew, hother⟩ := hreached part hpart
      rw [hset] at hhas
      rwa [← Config.eq_of_has_set hhas hnew]
  · rw [plan_of_repoRoot_error hroot, plan_of_repoRoot_error hroot]
    exact ⟨rfl, rfl⟩

def linuxSession : Session where
  config := { home := .ofString "/h" }
  env := fun _ => none
  files := filesNaming "x"
  queue := []
  runner := .recording

def windowsSession : Session where
  config := linuxSession.config.set (.osName "Windows")
  env := fun _ => some "/elsewhere"
  files := fun path => if path = "r/Cargo.toml" then filesNaming "x" path else none
  queue := [.exited 1 none none]
  runner := .subprocess false

/-- The operating system shows in two places, and nothing else does. -/
theorem plan_reads_manifest_windowsSession :
    (∃ p p', (linuxSession.step (.plan (.text "r/p"))).2.outcome = .ok (.planned p) ∧
      (windowsSession.step (.plan (.text "r/p"))).2.outcome = .ok (.planned p') ∧
      p.binary = .ofString "/h/plugins/bin/x" ∧ p'.binary = .ofString "/h/plugins/bin/x.exe" ∧
      ∀ part : Plan.Part, ¬ part.Same p p' → part = .binary ∨ part = .registerWord 2) ∧
    (linuxSession.step (.plan (.text "p"))).2.outcome =
        .error (.install (.invalidPath (.text "p"))) ∧
      (windowsSession.step (.plan (.text "p"))).2.outcome =
        .error (.install (.invalidPath (.text "p"))) := by
  have hroot : repoRoot (.text "r/p") = .ok (.ofString "r") := by decide +kernel
  have hpath : ((Path.ofString "r").join Manifest.fileName).toString = "r/Cargo.toml" := by
    decide +kernel
  have hsame : SameManifest linuxSession.files windowsSession.files (.text "r/p") := by
    intro root h
    have hfile : windowsSession.files "r/Cargo.toml" = linuxSession.files "r/Cargo.toml" := by
      simp [windowsSession, linuxSession]
    rw [← Except.ok.inj (hroot.symm.trans h), Manifest.contentAt, Manifest.contentAt, hpath, hfile]
  have hlinux : (plan linuxSession.config linuxSession.files (.text "r/p")).map Plan.binary =
      .ok (.ofString "/h/plugins/bin/x") := by decide +kernel
  have hwindows : (plan windowsSession.config windowsSession.files (.text "r/p")).map Plan.binary =
      .ok (.ofString "/h/plugins/bin/x.exe") := by decide +kernel
  obtain ⟨p, hp, hbinary⟩ := map_eq_ok.1 hlinux
  obtain ⟨p', hp', hbinary'⟩ := map_eq_ok.1 hwindows
  have hplanned : (linuxSession.step (.plan (.text "r/p"))).2.outcome = .ok (.planned p) := by
    rw [step_plan_outcome, hp, map_ok]
  have hplanned' : (windowsSession.step (.plan (.text "r/p"))).2.outcome = .ok (.planned p') := by
    rw [step_plan_outcome, hp', map_ok]
  refine ⟨⟨p, p', hplanned, hplanned', hbinary, hbinary', ?_⟩, ?_⟩
  · obtain ⟨f, hf, -⟩ | ⟨q, q', hq, hq', halike⟩ :=
      (plan_reads_manifest linuxSession windowsSession (.text "r/p")).1 hsame
    · rw [hplanned] at hf
      cases hf
    · rw [hplanned] at hq
      rw [hplanned'] at hq'
      cases hq
      cases hq'
      intro part hpart
      simpa [Setting.reaches] using halike.reached_by_one (.osName "Windows") rfl part hpart
  · have hbare : repoRoot (.text "p") = .error (.invalidPath (.text "p")) := by decide +kernel
    exact (plan_reads_manifest linuxSession windowsSession (.text "p")).2 _ hbare

end Session

end NuPlugin

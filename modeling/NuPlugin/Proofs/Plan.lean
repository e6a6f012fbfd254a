import NuPlugin.Install
import NuPlugin.Proofs.Except

/-!
# What a plan holds

A plan fits its settings, the files and the package file in every field, and a plan that cannot be
made fails for the package file or for the manifest.
-/

namespace NuPlugin

structure Plan.Fits (p : Plan) (c : Config) (files : Files) (file : PackageFile) : Prop where
  packageFile : p.packageFile = file.toPath
  repoRoot : NuPlugin.repoRoot file = .ok p.repoRoot
  installRoot : p.installRoot = c.installRoot
  manifest : p.manifest = p.repoRoot.join Manifest.fileName
  packageName : Manifest.packageName files p.manifest = .ok p.packageName
  binary : p.binary = binaryPath c.installRoot p.packageName c.osName
  buildArgv : p.buildArgv = buildCommand c p.repoRoot
  registerArgv : p.registerArgv = registerCommand c p.binary

theorem plan_eq_ok_iff {c : Config} {files : Files} {file : PackageFile} {p : Plan} :
    plan c files file = .ok p ↔ p.Fits c files file := by
  constructor
  · intro h
    obtain ⟨root, hroot, h⟩ := bind_eq_ok.1 h
    obtain ⟨name, hname, h⟩ := bind_eq_ok.1 h
    cases h
    exact ⟨rfl, mapError_eq_ok.1 hroot, rfl, rfl, hname, rfl, rfl, rfl⟩
  · rintro ⟨hfile, hroot, hinstall, hmanifest, hname, hbinary, hbuild, hregister⟩
    rw [hmanifest] at hname
    refine bind_eq_ok.2 ⟨p.repoRoot, mapError_eq_ok.2 hroot, ?_⟩
    refine bind_eq_ok.2 ⟨p.packageName, hname, ?_⟩
    refine congrArg Except.ok ?_
    rw [← hfile, ← hmanifest, ← hbinary, ← hinstall, ← hbuild, ← hregister]

theorem repoRoot_error {file : PackageFile} {e : InstallError} (h : repoRoot file = .error e) :
    e = .invalidPath file := by
  unfold repoRoot at h
  split at h
  · exact (Except.error.inj h).symm
  · cases h

theorem plan_of_repoRoot_error {c : Config} {files : Files} {file : PackageFile}
    {e : InstallError} (h : repoRoot file = .error e) :
    plan c files file = .error (.install e) := by
  rw [plan, h]
  rfl

theorem binaryExtension_cases (osName : String) :
    binaryExtension osName = ".exe" ∨ binaryExtension osName = "" := by
  unfold binaryExtension
  dsimp only
  split
  · exact .inl rfl
  · exact .inr rfl

/-! ## Failures -/

namespace Failure

/-- An integer of too many digits was read or written. -/
def IsOfLength : Failure → Prop
  | .integerTooLong _ => True
  | .exitCodeTooLong => True
  | _ => False

/-- A value is in the way: an integer of too many digits, or a text that was refused. -/
def IsOfValue (f : Failure) : Prop := f.IsOfLength ∨ ∃ reason, f = .refused reason

theorem IsOfValue.ne_install {f : Failure} (h : f.IsOfValue) (e : InstallError) :
    f ≠ .install e := by
  rintro rfl
  rcases h with h | ⟨reason, h⟩
  · exact h
  · cases h

/-- The failure is that of the manifest which belongs to the package file, and leaves no error to
tell: an integer in it is too long, or the path to it was refused. -/
def IsOfManifest (f : Failure) (files : Files) (file : PackageFile) : Prop :=
  ∃ root, repoRoot file = .ok root ∧
    Manifest.packageName files (root.join Manifest.fileName) = .error f ∧
    ((∃ digits, f = .integerTooLong digits) ∨ ∃ reason, f = .refused reason)

variable {f : Failure} {files : Files} {file : PackageFile}

theorem IsOfManifest.isOfValue (h : f.IsOfManifest files file) : f.IsOfValue := by
  obtain ⟨root, -, -, ⟨digits, rfl⟩ | hrefused⟩ := h
  · exact .inl trivial
  · exact .inr hrefused

theorem IsOfManifest.ne_install (h : f.IsOfManifest files file) (e : InstallError) :
    f ≠ .install e := h.isOfValue.ne_install e

end Failure

theorem Manifest.packageName_error_cases {files : Files} {path : Path} {f : Failure}
    (h : packageName files path = .error f) :
    (∃ e, f = .install e) ∨
      (∃ digits, f = .integerTooLong digits) ∨ ∃ reason, f = .refused reason := by
  unfold packageName at h
  split at h
  · exact .inl ⟨_, (Except.error.inj h).symm⟩
  · exact .inr (.inr ⟨_, (Except.error.inj h).symm⟩)
  · obtain ⟨refusal, -, rfl⟩ := mapError_eq_error.1 h
    cases refusal with
    | integerTooLong digits => exact .inr (.inl ⟨digits, rfl⟩)
    | _ => exact .inl ⟨_, rfl⟩

section

variable {c : Config} {files : Files} {file : PackageFile} {f : Failure}

theorem plan_of_packageName_error {root : Path} (hroot : repoRoot file = .ok root)
    (h : Manifest.packageName files (root.join Manifest.fileName) = .error f) :
    plan c files file = .error f := by
  rw [plan, hroot, mapError_ok, ok_bind]
  exact bind_eq_error.2 (.inl h)

theorem exists_plan_of_packageName_ok {root : Path} {name : String}
    (hroot : repoRoot file = .ok root)
    (h : Manifest.packageName files (root.join Manifest.fileName) = .ok name) :
    ∃ p, plan c files file = .ok p := by
  rw [plan, hroot, mapError_ok, ok_bind]
  exact ⟨_, bind_eq_ok.2 ⟨name, h, rfl⟩⟩

theorem plan_error_cases (h : plan c files file = .error f) :
    (∃ e, f = .install e) ∨ f.IsOfManifest files file := by
  rcases bind_eq_error.1 h with hroot | ⟨root, hroot, h⟩
  · obtain ⟨e, -, rfl⟩ := mapError_eq_error.1 hroot
    exact .inl ⟨e, rfl⟩
  · rcases bind_eq_error.1 h with hname | ⟨name, -, h⟩
    · exact (Manifest.packageName_error_cases hname).imp_right fun hcases =>
        ⟨root, mapError_eq_ok.1 hroot, hname, hcases⟩
    · cases h

theorem plan_of_isOfManifest (c : Config) (h : f.IsOfManifest files file) :
    plan c files file = .error f := by
  obtain ⟨root, hroot, hname, -⟩ := h
  exact plan_of_packageName_error hroot hname

theorem plan_error_iff :
    (plan c files file = .error f ∧ ∀ e, f ≠ .install e) ↔ f.IsOfManifest files file := by
  constructor
  · rintro ⟨h, hf⟩
    exact (plan_error_cases h).resolve_left (not_exists.2 hf)
  · exact fun h => ⟨plan_of_isOfManifest c h, h.ne_install⟩

end

end NuPlugin

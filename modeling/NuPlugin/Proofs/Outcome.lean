import NuPlugin.Proofs.CommandLine.Request
import NuPlugin.Proofs.Manifest
import NuPlugin.Proofs.Path
import NuPlugin.Proofs.Text.DoubleQuoted
import NuPlugin.Proofs.Toml.Fault

/-!
# How a manifest can end an installation

A manifest gives a name that is not blank, cannot be read, or is refused. It can do two things more.
An integer that is too long breaks off whatever reads it, and a name with a null character breaks
off the installation that is to register it.
-/

namespace NuPlugin

namespace Manifest

variable {files : Files} {path : Path} {name : String} {s : List Char} {bytes : List UInt8}
  {digits : Nat}

/-! ## What a manifest holds -/

/-- What a reader finds. Where there is no file, the file system says so. -/
def contentAt (files : Files) (path : Path) : FileContent :=
  (files path.toString).getD (.unreadable .noSuchFile)

/-- The text is a document with a name that is not blank. -/
def Gives (s : List Char) (name : String) : Prop :=
  ∃ t, Toml.readDocument (Toml.joinNewlines s) = .ok t ∧ t.Binds ["package", "name"] name ∧
    Text.isAllBlank name = false

/-- The text is no document, or one whose name is blank or missing. -/
def GivesNothing (s : List Char) : Prop :=
  (∃ cause rest, Toml.readDocument (Toml.joinNewlines s) = .error (.malformed cause rest)) ∨
    ∃ t, Toml.readDocument (Toml.joinNewlines s) = .ok t ∧
      ∀ name, t.Binds ["package", "name"] name → Text.isAllBlank name = true

def StopsAt (s : List Char) (digits : Nat) : Prop :=
  Toml.readDocument (Toml.joinNewlines s) = .error (.integerTooLong digits)

theorem StopsAt.holdsRun (h : StopsAt s digits) :
    Text.maxDigits < digits ∧ Toml.HoldsRun digits (Toml.joinNewlines s) :=
  Toml.readDocument_faults _ _ h

theorem stopsAt_ones (h : Text.maxDigits < digits) :
    StopsAt ("a = ".toList ++ Toml.ones digits) digits := by
  have hfree : '\r' ∉ "a = ".toList ++ Toml.ones digits := by
    simp [Toml.ones]
  rw [StopsAt, Toml.joinNewlines_of_notMem hfree]
  exact Toml.readDocument_ones h

/-! ## Refusals -/

def Refusal.IsTold (refusal : Refusal) : Prop := ∀ digits, refusal ≠ .integerTooLong digits

theorem nameInTable_eq_ok_iff {t : Toml.Table} :
    nameInTable t = .ok name ↔
      t.Binds ["package", "name"] name ∧ Text.isAllBlank name = false :=
  ⟨nameInTable_eq_ok, fun h => nameInTable_of_binds h.1 h.2⟩

theorem nameInTable_isTold {t : Toml.Table} {refusal : Refusal}
    (h : nameInTable t = .error refusal) : refusal.IsTold := by
  unfold nameInTable at h
  rintro digits rfl
  split at h
  · split at h
    · split at h <;> cases h
    · cases h
  · cases h

theorem nameInTable_isTold_iff {t : Toml.Table} :
    (∃ refusal, nameInTable t = .error refusal ∧ refusal.IsTold) ↔
      ∀ name, t.Binds ["package", "name"] name → Text.isAllBlank name = true := by
  constructor
  · rintro ⟨refusal, hrefused, -⟩ name hbinds
    by_contra hblank
    rw [nameInTable_of_binds hbinds (Bool.eq_false_iff.2 hblank)] at hrefused
    cases hrefused
  · intro hnone
    cases hname : nameInTable t with
    | error refusal => exact ⟨refusal, rfl, nameInTable_isTold hname⟩
    | ok name =>
      obtain ⟨hbinds, hblank⟩ := nameInTable_eq_ok hname
      exact absurd (hnone name hbinds) (by simp [hblank])

/-! ## Texts -/

theorem nameInText_eq_ok_iff : nameInText s = .ok name ↔ Gives s name := by
  unfold nameInText Gives
  dsimp only
  cases Toml.readDocument (Toml.joinNewlines s) with
  | error fault => cases fault <;> simp
  | ok t => simp [nameInTable_eq_ok_iff]

theorem nameInText_eq_integerTooLong_iff :
    nameInText s = .error (.integerTooLong digits) ↔ StopsAt s digits := by
  unfold nameInText StopsAt
  dsimp only
  cases Toml.readDocument (Toml.joinNewlines s) with
  | error fault => cases fault <;> simp
  | ok t => simpa using fun h => nameInTable_isTold h digits rfl

theorem nameInText_isTold_iff :
    (∃ refusal, nameInText s = .error refusal ∧ refusal.IsTold) ↔ GivesNothing s := by
  unfold nameInText GivesNothing
  dsimp only
  cases Toml.readDocument (Toml.joinNewlines s) with
  | error fault => cases fault <;> simp [Refusal.IsTold]
  | ok t => simp [nameInTable_isTold_iff]

/-! ## Bytes -/

/-- The bytes are no text, or a text that gives no name. -/
def IsUnusable (bytes : List UInt8) : Prop :=
  (∀ s, bytes ≠ Text.Utf8.encode s) ∨ ∃ s, bytes = Text.Utf8.encode s ∧ GivesNothing s

theorem nameInBytes_encode (s : List Char) : nameInBytes (Text.Utf8.encode s) = nameInText s := by
  rw [nameInBytes, Text.Utf8.decode_encode]

theorem nameInBytes_of_ne_encode (h : ∀ s, bytes ≠ Text.Utf8.encode s) :
    ∃ fault, nameInBytes bytes = .error (.notUtf8 fault) := by
  unfold nameInBytes
  cases hdecode : Text.Utf8.decode bytes with
  | ok s => exact absurd (Text.Utf8.decode_eq_ok_iff.1 hdecode) (h s)
  | error fault => exact ⟨fault, rfl⟩

/-- All that bytes can lead to, except that they are no text, a text leads to. -/
theorem nameInBytes_eq_iff {outcome : Except Refusal String}
    (h : ∀ fault, outcome ≠ .error (.notUtf8 fault)) :
    nameInBytes bytes = outcome ↔ ∃ s, bytes = Text.Utf8.encode s ∧ nameInText s = outcome := by
  constructor
  · intro houtcome
    by_cases hbytes : ∃ s, bytes = Text.Utf8.encode s
    · obtain ⟨s, rfl⟩ := hbytes
      exact ⟨s, rfl, nameInBytes_encode s ▸ houtcome⟩
    · obtain ⟨fault, hfault⟩ := nameInBytes_of_ne_encode (not_exists.1 hbytes)
      exact absurd (houtcome.symm.trans hfault) (h fault)
  · rintro ⟨s, rfl, houtcome⟩
    rw [nameInBytes_encode, houtcome]

theorem nameInBytes_isTold_iff :
    (∃ refusal, nameInBytes bytes = .error refusal ∧ refusal.IsTold) ↔ IsUnusable bytes := by
  by_cases hbytes : ∃ s, bytes = Text.Utf8.encode s
  · obtain ⟨s, rfl⟩ := hbytes
    rw [nameInBytes_encode, nameInText_isTold_iff]
    constructor
    · exact fun h => .inr ⟨s, rfl, h⟩
    · rintro (h | ⟨s', hs, h⟩)
      · exact absurd rfl (h s)
      · have hdecode := Text.Utf8.decode_eq_ok_iff.2 hs
        rw [Text.Utf8.decode_encode] at hdecode
        cases hdecode
        exact h
  · have hne := not_exists.1 hbytes
    obtain ⟨fault, hfault⟩ := nameInBytes_of_ne_encode hne
    exact iff_of_true ⟨_, hfault, nofun⟩ (.inl hne)

/-! ## Manifests -/

theorem packageName_of_unreadable {e : OsError} (h : contentAt files path = .unreadable e) :
    packageName files path = .error (.install (.unreadableManifest path e.reason)) := by
  unfold packageName
  rw [show (files path.toString).getD _ = _ from h]

theorem packageName_of_refused {reason : String} (h : contentAt files path = .refused reason) :
    packageName files path = .error (.refused reason) := by
  unfold packageName
  rw [show (files path.toString).getD _ = _ from h]

theorem packageName_of_bytes (h : contentAt files path = .bytes bytes) :
    packageName files path = (nameInBytes bytes).mapError (Refusal.toFailure path) := by
  unfold packageName
  rw [show (files path.toString).getD _ = _ from h]

theorem packageName_ne_of_bytes {f : Failure} (h : contentAt files path = .bytes bytes)
    (hf : ∀ refusal : Refusal, refusal.toFailure path ≠ f) :
    packageName files path ≠ .error f := by
  rw [packageName_of_bytes h, Ne, mapError_eq_error]
  rintro ⟨refusal, -, hrefusal⟩
  exact hf refusal hrefusal

theorem Refusal.toFailure_eq_integerTooLong_iff {refusal : Refusal} :
    refusal.toFailure path = .integerTooLong digits ↔ refusal = .integerTooLong digits := by
  cases refusal <;> simp [toFailure]

theorem Refusal.toFailure_isTold_iff {refusal : Refusal} :
    (∃ reason, refusal.toFailure path = .install (.invalidManifest path reason)) ↔
      refusal.IsTold := by
  cases refusal <;> simp [toFailure, IsTold]

theorem packageName_eq_ok_iff :
    packageName files path = .ok name ↔
      ∃ s, contentAt files path = .bytes (Text.Utf8.encode s) ∧ Gives s name := by
  cases hcontent : contentAt files path with
  | unreadable e => simp [packageName_of_unreadable hcontent]
  | refused reason => simp [packageName_of_refused hcontent]
  | bytes bytes =>
    rw [packageName_of_bytes hcontent, mapError_eq_ok, nameInBytes_eq_iff (by simp)]
    simp [nameInText_eq_ok_iff]

theorem packageName_unreadable_iff {reason : String} :
    packageName files path = .error (.install (.unreadableManifest path reason)) ↔
      ∃ e, contentAt files path = .unreadable e ∧ e.reason = reason := by
  cases hcontent : contentAt files path with
  | unreadable e => simp [packageName_of_unreadable hcontent]
  | refused reason => simp [packageName_of_refused hcontent]
  | bytes bytes =>
    refine iff_of_false (packageName_ne_of_bytes hcontent ?_) (by simp)
    intro refusal
    cases refusal <;> exact nofun

theorem packageName_refused_iff {reason : String} :
    packageName files path = .error (.refused reason) ↔ contentAt files path = .refused reason := by
  cases hcontent : contentAt files path with
  | unreadable e => simp [packageName_of_unreadable hcontent]
  | refused reason' => simp [packageName_of_refused hcontent]
  | bytes bytes =>
    refine iff_of_false (packageName_ne_of_bytes hcontent ?_) (by simp)
    intro refusal
    cases refusal <;> exact nofun

theorem packageName_invalid_iff :
    (∃ reason, packageName files path = .error (.install (.invalidManifest path reason))) ↔
      ∃ bytes, contentAt files path = .bytes bytes ∧ IsUnusable bytes := by
  cases hcontent : contentAt files path with
  | unreadable e => simp [packageName_of_unreadable hcontent]
  | refused reason => simp [packageName_of_refused hcontent]
  | bytes bytes =>
    simp only [packageName_of_bytes hcontent, mapError_eq_error, FileContent.bytes.injEq,
      exists_eq_left']
    rw [exists_comm, ← nameInBytes_isTold_iff]
    simp only [exists_and_left, Refusal.toFailure_isTold_iff]

theorem packageName_integerTooLong_iff :
    packageName files path = .error (.integerTooLong digits) ↔
      ∃ s, contentAt files path = .bytes (Text.Utf8.encode s) ∧ StopsAt s digits := by
  cases hcontent : contentAt files path with
  | unreadable e => simp [packageName_of_unreadable hcontent]
  | refused reason => simp [packageName_of_refused hcontent]
  | bytes bytes =>
    simp only [packageName_of_bytes hcontent, mapError_eq_error,
      Refusal.toFailure_eq_integerTooLong_iff, exists_eq_right]
    rw [nameInBytes_eq_iff (by simp)]
    simp [nameInText_eq_integerTooLong_iff]

theorem packageName_cases (files : Files) (path : Path) :
    (∃ name, packageName files path = .ok name) ∨
      (∃ reason, packageName files path = .error (.install (.unreadableManifest path reason))) ∨
      (∃ reason, packageName files path = .error (.install (.invalidManifest path reason))) ∨
      (∃ digits, packageName files path = .error (.integerTooLong digits)) ∨
      ∃ reason, packageName files path = .error (.refused reason) := by
  cases hcontent : contentAt files path with
  | unreadable e => exact .inr (.inl ⟨_, packageName_of_unreadable hcontent⟩)
  | refused reason => exact .inr (.inr (.inr (.inr ⟨reason, packageName_of_refused hcontent⟩)))
  | bytes bytes =>
    rw [packageName_of_bytes hcontent]
    cases nameInBytes bytes with
    | ok name => exact .inl ⟨name, rfl⟩
    | error refusal =>
      cases refusal with
      | integerTooLong digits => exact .inr (.inr (.inr (.inl ⟨digits, rfl⟩)))
      | _ => exact .inr (.inr (.inl ⟨_, rfl⟩))

end Manifest

/-! ## Words with a null character -/

theorem null_mem_writeText_iff (s : List Char) :
    '\u0000' ∈ Text.DoubleQuoted.writeText s ↔ '\u0000' ∈ s := by
  have hchar : ∀ d, '\u0000' ∈ Text.DoubleQuoted.escapedChar d ↔ '\u0000' = d := by
    intro d
    unfold Text.DoubleQuoted.escapedChar
    split <;> simp
  simp [Text.DoubleQuoted.writeText, Text.DoubleQuoted.escaped, hchar]

theorem holdsNull_registerCommand_iff (c : Config) (binary : Path) :
    HoldsNull (registerCommand c binary) ↔
      '\u0000' ∈ c.host.toList ∨ '\u0000' ∈ binary.toString.toList := by
  simp [HoldsNull, registerCommand, null_mem_writeText_iff]

theorem holdsNull_buildCommand_iff (c : Config) (root : Path) :
    HoldsNull (buildCommand c root) ↔
      '\u0000' ∈ c.cargo.toList ∨ '\u0000' ∈ root.toString.toList ∨
        '\u0000' ∈ c.home.toString.toList := by
  simp [HoldsNull, buildCommand, Config.installRoot, Path.mem_join_iff]

section

variable {c : Config} {files : Files} {file : PackageFile} {p : Plan}

/-- Of all that a manifest says only the name gets into a command, and only into the second. -/
theorem Plan.Fits.holdsNull_registerArgv_iff (h : p.Fits c files file) :
    HoldsNull p.registerArgv ↔ '\u0000' ∈ c.host.toList ∨
      (p.packageName.toList.head? ≠ some '/' ∧ '\u0000' ∈ c.home.toString.toList) ∨
        '\u0000' ∈ p.packageName.toList := by
  have hextension : '\u0000' ∉ (binaryExtension c.osName).toList ∧
      (binaryExtension c.osName).toList.head? ≠ some '/' := by
    rcases binaryExtension_cases c.osName with he | he <;> rw [he] <;> decide
  rw [h.registerArgv, holdsNull_registerCommand_iff, h.binary, binaryPath, Config.installRoot]
  simp [Path.mem_join_iff, hextension]

/-- A name with a null character lets the build end well and breaks the installation off there. -/
theorem install_of_null_name {runner : Runner} {queue : List Reply}
    (h : plan c files file = .ok p) (hname : '\u0000' ∈ p.packageName.toList)
    (hbuilt : (replyAt queue 0).EndsWell) (hfits : (replyAt queue 1).Fits p.registerArgv) :
    (install c files runner file queue).outcome = .error (.refused embeddedNull) := by
  have hnull : HoldsNull p.registerArgv :=
    (plan_eq_ok_iff.1 h).holdsNull_registerArgv_iff.2 (.inr (.inr hname))
  have hbreaks : (Failure.refused embeddedNull).IsOfCommand queue :=
    .inr ⟨hbuilt, hfits.breakdown?_eq hnull⟩
  rw [install_of_plan_ok h]
  exact Plan.carryOut_of_isOfCommand (buildArgv_ne_nil h) (registerArgv_ne_nil h) hbreaks

end

/-! ## The contract -/

namespace Manifest

/-- How reading a manifest ends, told from what is found at its path. -/
structure Ends (files : Files) (path : Path) : Prop where
  ok : ∀ name, packageName files path = .ok name ↔
    ∃ s, contentAt files path = .bytes (Text.Utf8.encode s) ∧ Gives s name
  unreadable : ∀ reason,
    packageName files path = .error (.install (.unreadableManifest path reason)) ↔
      ∃ e, contentAt files path = .unreadable e ∧ e.reason = reason
  invalid :
    (∃ reason, packageName files path = .error (.install (.invalidManifest path reason))) ↔
      ∃ bytes, contentAt files path = .bytes bytes ∧ IsUnusable bytes
  integerTooLong : ∀ digits, packageName files path = .error (.integerTooLong digits) ↔
    ∃ s, contentAt files path = .bytes (Text.Utf8.encode s) ∧ StopsAt s digits
  refused : ∀ reason, packageName files path = .error (.refused reason) ↔
    contentAt files path = .refused reason
  nothingElse : (∃ name, packageName files path = .ok name) ∨
    (∃ reason, packageName files path = .error (.install (.unreadableManifest path reason))) ∨
    (∃ reason, packageName files path = .error (.install (.invalidManifest path reason))) ∨
    (∃ digits, packageName files path = .error (.integerTooLong digits)) ∨
    ∃ reason, packageName files path = .error (.refused reason)

/-- What the manifests among the files can do to a plan, an installation and a run. An integer above
the limit and a name with a null character are the two things in a manifest that the user is not
told about; whatever else is not told comes from the path of the manifest, from the commands or from
the options. -/
structure Reaches (files : Files) : Prop where
  reading : ∀ path, Ends files path
  long : ∀ s digits, StopsAt s digits →
    Text.maxDigits < digits ∧ Toml.HoldsRun digits (Toml.joinNewlines s)
  every_long : ∀ digits, Text.maxDigits < digits → ∃ s, StopsAt s digits
  planning : ∀ c file f,
    (plan c files file = .error f ∧ ∀ e, f ≠ .install e) ↔ f.IsOfManifest files file
  installing : ∀ c runner file queue f,
    ((install c files runner file queue).outcome = .error f ∧ ∀ e, f ≠ .install e) ↔
      f.IsOfManifest files file ∨ (∃ p, plan c files file = .ok p) ∧ f.IsOfCommand queue
  installingAlone : ∀ settings env runner file queue f,
    (installWith settings env files runner file queue).outcome = .error f →
      (∃ e, f = .install e) ∨ f.IsOfManifest files file ∨ f.IsOfCommand queue
  running : ∀ env queue arguments f, CommandLine.run ⟨env, files, queue⟩ arguments = .error f →
    ∃ r, CommandLine.Request.ofArguments arguments = .ok r ∧
      (f.IsOfManifest files (.text r.packageFile) ∨ r.dryRun = false ∧ f.IsOfCommand queue ∨
        f = .namelessProgram ∧ (r.cargo = some .nothing ∨ r.host = some .nothing))
  nullBuilding : ∀ c file p, plan c files file = .ok p →
    (HoldsNull p.buildArgv ↔ '\u0000' ∈ c.cargo.toList ∨ '\u0000' ∈ p.repoRoot.toString.toList ∨
      '\u0000' ∈ c.home.toString.toList)
  nullRegistering : ∀ c file p, plan c files file = .ok p →
    (HoldsNull p.registerArgv ↔ '\u0000' ∈ c.host.toList ∨
      (p.packageName.toList.head? ≠ some '/' ∧ '\u0000' ∈ c.home.toString.toList) ∨
        '\u0000' ∈ p.packageName.toList)
  nullName : ∀ c runner file queue p, plan c files file = .ok p →
    '\u0000' ∈ p.packageName.toList → (replyAt queue 0).EndsWell →
      (replyAt queue 1).Fits p.registerArgv →
        (install c files runner file queue).outcome = .error (.refused embeddedNull)

theorem ends (files : Files) (path : Path) : Ends files path where
  ok _ := packageName_eq_ok_iff
  unreadable _ := packageName_unreadable_iff
  invalid := packageName_invalid_iff
  integerTooLong _ := packageName_integerTooLong_iff
  refused _ := packageName_refused_iff
  nothingElse := packageName_cases files path

end Manifest

theorem manifest_ends (files : Files) : Manifest.Reaches files where
  reading := Manifest.ends files
  long _ _ h := h.holdsRun
  every_long _ h := ⟨_, Manifest.stopsAt_ones h⟩
  planning _ _ _ := plan_error_iff
  installing _ _ _ _ _ := install_error_iff
  installingAlone _ _ _ _ _ _ h := installWith_error_cases h
  running _ _ _ _ h := CommandLine.run_error_cases h
  nullBuilding _ _ _ h := (plan_eq_ok_iff.1 h).buildArgv ▸ holdsNull_buildCommand_iff _ _
  nullRegistering _ _ _ h := (plan_eq_ok_iff.1 h).holdsNull_registerArgv_iff
  nullName _ _ _ _ _ h hname hbuilt hfits := install_of_null_name h hname hbuilt hfits

/-- A name with a null character, and the replies of a system to its two commands. -/
example :
    CommandLine.run
        ⟨fun _ => none, fun _ => some (.ofText "package.name = \"x\\u0000y\""),
          [.default, .refused embeddedNull]⟩ ["--home=/h", "repo/p"] =
      .error (.refused embeddedNull) := by
  decide +kernel

/-- One digit above the limit: no name, no error that the user is told about, and no answer to a
run. -/
theorem ones_not_told :
    let files : Files := fun _ => some (.bytes (Text.Utf8.encode ("a = ".toList ++ Toml.ones 4301)))
    let outcome := Manifest.packageName files (.ofString "Cargo.toml")
    (¬ ∃ name, outcome = .ok name) ∧ (¬ ∃ e, outcome = .error (.install e)) ∧
      outcome = .error (.integerTooLong 4301) ∧
      CommandLine.run ⟨fun _ => none, files, []⟩ ["--home=/h", "repo/p"] =
        .error (.integerTooLong 4301) := by
  intro files outcome
  have hname : ∀ path, Manifest.packageName files path = .error (.integerTooLong 4301) :=
    fun path => Manifest.packageName_integerTooLong_iff.2
      ⟨_, rfl, Manifest.stopsAt_ones (Nat.lt_succ_self 4300)⟩
  have houtcome : outcome = .error (.integerTooLong 4301) := hname _
  clear_value files outcome
  refine ⟨by simp [houtcome], by simp [houtcome], houtcome, ?_⟩
  have hroot : repoRoot (.text "repo/p") = .ok (.ofString "repo") := by decide +kernel
  have hrequest : CommandLine.Request.ofArguments ["--home=/h", "repo/p"] =
      .ok ⟨"repo/p", some (.value "/h"), none, none, false, false, false⟩ := by decide +kernel
  exact CommandLine.run_of_isOfManifest hrequest
    (CommandLine.Request.config_of_home _ rfl (by decide)) ⟨_, hroot, hname _, .inl ⟨4301, rfl⟩⟩

end NuPlugin

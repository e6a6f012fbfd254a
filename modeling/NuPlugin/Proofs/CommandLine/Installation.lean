import NuPlugin.Proofs.CommandLine.Request

/-!
# A run is an installation

With its options spelled out, a run of the program starts what an installation with those settings
starts, and tells its end.
-/

namespace NuPlugin.CommandLine

/-! ## Telling an execution -/

def eventLines (events : List Event) : String :=
  String.join ((events.filter fun e => e.level = .info ∨ e.level = .warning).map
    fun e => e.message ++ "\n")

def outputLines : InstallError → String
  | .commandFailed _ _ result => if result.output = "" then "" else result.output ++ "\n"
  | _ => ""

/-- The end of an execution as a user is told of it. -/
def told (e : Execution Plan) : Except Failure Answer :=
  match e.outcome with
  | .ok p =>
    .ok ⟨0, "Installed plugin '" ++ p.packageName ++ "' at " ++ p.binary.toString ++ "\n",
      eventLines e.events, e.calls⟩
  | .error (.install error) =>
    .ok ⟨1, "", eventLines e.events ++ "Error: " ++ error.message ++ "\n" ++ outputLines error,
      e.calls⟩
  | .error f => .error f

def World.install (w : World) (c : Config) (file : String) : Execution Plan :=
  NuPlugin.install c w.files (.subprocess false) (.text file) w.queue

def World.installAtHome (w : World) (cargo host file : String) : Execution Plan :=
  match repoRoot (.text file), Config.homeFrom w.env with
  | .error e, _ => .done (.error (.install e)) w.queue
  | .ok _, .error e => .done (.error (.install e)) w.queue
  | .ok _, .ok home => w.install { home, cargo, host } file

theorem shownEvents_info (events : List Event) :
    shownEvents .info events = eventLines events := by
  have hlevel : ∀ e : Event,
      decide (Level.info.rank ≤ e.level.rank) = decide (e.level = .info ∨ e.level = .warning) := by
    intro e
    cases e.level <;> rfl
  simp only [shownEvents, eventLines, hlevel]

theorem errorText_eq (e : InstallError) :
    errorText e = "Error: " ++ e.message ++ "\n" ++ outputLines e := by
  cases e <;> rfl

theorem installedText_eq (p : Plan) :
    installedText p =
      "Installed plugin '" ++ p.packageName ++ "' at " ++ p.binary.toString ++ "\n" := rfl

theorem Request.answer_eq_told {r : Request} (w : World) (hdry : r.dryRun = false)
    (hquiet : r.quiet = false) (hverbose : r.verbose = false) (hcargo : r.cargo ≠ some .nothing)
    (hhost : r.host ≠ some .nothing) : r.answer w = told (r.execute w) := by
  have hthreshold : r.threshold = .info := by rw [threshold, hverbose, hquiet]; rfl
  unfold told
  cases houtcome : (r.execute w).outcome with
  | ok p =>
    rw [answer_of_ok houtcome, hthreshold, shownEvents_info, hdry,
      if_neg Bool.false_ne_true, installedText_eq]
  | error f =>
    cases f with
    | install e =>
      rw [answer_of_error houtcome (canTell_of_values hcargo hhost e), hthreshold,
        shownEvents_info, errorText_eq, ← String.append_assoc, ← String.append_assoc,
        ← String.append_assoc]
    | _ => exact answer_of_failure houtcome nofun

/-! ## Runs -/

section

variable {w : World} {arguments : List String} {file : String} (cargo host : Option String)

theorem run_eq_told_install {H : String} (hH : H ≠ "")
    (hr : Request.ofArguments arguments = .ok
      ⟨file, some (.value H), cargo.map .value, host.map .value, false, false, false⟩) :
    run w arguments =
      told (w.install { home := .ofString H, cargo := cargo.getD "cargo",
                        host := host.getD "nu" } file) := by
  simp only [run, hr]
  rw [Request.answer_eq_told w rfl rfl rfl (by cases cargo <;> simp) (by cases host <;> simp),
    Request.execute_of_config_ok (Request.config_of_home w.env rfl hH)]
  simp only [Request.getD_programName, Bool.false_eq_true, if_false]
  rfl

theorem run_eq_told_installAtHome
    (hr : Request.ofArguments arguments = .ok
      ⟨file, none, cargo.map .value, host.map .value, false, false, false⟩) :
    run w arguments =
      told (w.installAtHome (cargo.getD "cargo") (host.getD "nu") file) := by
  simp only [run, hr]
  rw [Request.answer_eq_told w rfl rfl rfl (by cases cargo <;> simp) (by cases host <;> simp)]
  have hconfig := Request.config_of_home_none (r :=
    ⟨file, none, cargo.map .value, host.map .value, false, false, false⟩) w.env rfl
  simp only [Request.getD_programName] at hconfig
  unfold World.installAtHome
  cases hhome : Config.homeFrom w.env with
  | error e =>
    rw [hhome] at hconfig
    rw [Request.execute_of_config_error hconfig]
    cases repoRoot (.text file) <;> rfl
  | ok home =>
    rw [hhome] at hconfig
    rw [Request.execute_of_config_ok hconfig]
    cases hroot : repoRoot (.text file) with
    | error e =>
      simp only [Bool.false_eq_true, if_false]
      rw [install_of_plan_error (plan_of_repoRoot_error hroot)]
    | ok root => rfl

end

def valued (home cargo host : Option String) : List (OptionName × String) :=
  home.toList.map (.home, ·) ++ cargo.toList.map (.cargo, ·) ++ host.toList.map (.host, ·)

theorem takesValue_of_mem_valued {home cargo host : Option String} {v : OptionName × String}
    (h : v ∈ valued home cargo host) : v.1.takesValue = true := by
  simp only [valued, List.mem_append, List.mem_map] at h
  rcases h with (⟨s, -, rfl⟩ | ⟨s, -, rfl⟩) | ⟨s, -, rfl⟩ <;> rfl

theorem given_of_ne_separator {s : String} (h : s ≠ "--") : Given.ofExplicit s = .value s :=
  if_neg h

theorem giveAll_valued {home cargo host : Option String} (hhome : home ≠ some "--")
    (hcargo : cargo ≠ some "--") (hhost : host ≠ some "--") :
    Reading.start.giveAll (valued home cargo host) =
      { Reading.start with
        home := home.map .value, cargo := cargo.map .value, host := host.map .value } := by
  have hgiven : ∀ {s : String}, some s ≠ some "--" → Given.ofExplicit s = .value s :=
    fun h => given_of_ne_separator fun he => h (he ▸ rfl)
  rw [Reading.giveAll, valued, List.foldl_append, List.foldl_append]
  cases home <;> cases cargo <;> cases host <;>
    simp_all [Reading.give, Reading.start]

theorem ofArguments_valued {arguments tail : List String} {home cargo host : Option String}
    {file : String} (hhome : home ≠ some "--") (hcargo : cargo ≠ some "--")
    (hhost : host ≠ some "--")
    (htail : tail = ["--", file] ∨ tail = [file] ∧ file.toList.head? ≠ some '-')
    (h : arguments = (valued home cargo host).map (fun v => v.1.long ++ "=" ++ v.2) ++ tail) :
    Request.ofArguments arguments =
      .ok ⟨file, home.map .value, cargo.map .value, host.map .value, false, false, false⟩ := by
  rw [h, Request.ofArguments_giveAll (fun v hv => takesValue_of_mem_valued hv) htail,
    giveAll_valued hhome hcargo hhost]
  rfl

/-- With its options and the separator written out, a run is an installation with those settings.
It stays one without the separator, as long as the package file does not begin with a dash, and
without options: then the home directory is that of the environment, and the programs have their
usual names. -/
theorem run_refines_install (w : World) {H C X : String} (P : String) (hempty : H ≠ "")
    (hH : H ≠ "--") (hC : C ≠ "--") (hX : X ≠ "--") :
    let settings : Config := ⟨.ofString H, C, X, "Linux"⟩
    run w ["--home=" ++ H, "--cargo=" ++ C, "--host=" ++ X, "--", P] =
        told (w.install settings P) ∧
      (∀ call ∈ (w.install settings P).calls, call.capture = some false) ∧
      (∀ f, (w.install settings P).outcome = .error f →
        (∃ e, f = .install e) ∨ f.IsOfValue) ∧
      (P.toList.head? ≠ some '-' →
        run w ["--home=" ++ H, "--cargo=" ++ C, "--host=" ++ X, P] =
          told (w.install settings P)) ∧
      run w ["--cargo=" ++ C, "--host=" ++ X, "--", P] = told (w.installAtHome C X P) ∧
      run w ["--home=" ++ H, "--", P] = told (w.install { home := .ofString H } P) ∧
      run w ["--", P] = told (w.installAtHome "cargo" "nu" P) := by
  have hH' : some H ≠ some "--" := fun h => hH (Option.some.inj h)
  have hC' : some C ≠ some "--" := fun h => hC (Option.some.inj h)
  have hX' : some X ≠ some "--" := fun h => hX (Option.some.inj h)
  have hnone : (none : Option String) ≠ some "--" := nofun
  have hdashes : ["--", P] = ["--", P] ∨ ["--", P] = [P] ∧ P.toList.head? ≠ some '-' := .inl rfl
  refine ⟨?_, ?_, ?_, ?_, ?_, ?_, ?_⟩
  · exact run_eq_told_install (some C) (some X) hempty
      (ofArguments_valued hH' hC' hX' hdashes rfl)
  · intro call hcall
    rw [World.install] at hcall
    rw [call_of_mem_install_calls hcall, Runner.call]
  · intro f hf
    rw [World.install] at hf
    exact install_error_isOfValue hf
  · intro hP
    exact run_eq_told_install (some C) (some X) hempty
      (ofArguments_valued hH' hC' hX' (.inr ⟨rfl, hP⟩) rfl)
  · exact run_eq_told_installAtHome (some C) (some X)
      (ofArguments_valued hnone hC' hX' hdashes rfl)
  · exact run_eq_told_install none none hempty
      (ofArguments_valued hH' hnone hnone hdashes rfl)
  · exact run_eq_told_installAtHome none none
      (ofArguments_valued hnone hnone hnone hdashes rfl)

/-- A package file that looks like an option, and a host that cannot be started. -/
def dashedWorld : World where
  env _ := none
  files path :=
    if path = "-a b/Cargo.toml" then some (.ofText "[package]\nname = 'n'\n") else none
  queue := [.exited 0 none none, .notStarted (.text "gone")]

theorem run_dashedWorld :
    run dashedWorld ["--home=" ++ "/h", "--cargo=" ++ "", "--host=" ++ "=", "--", "-a b/p"] =
      .ok ⟨1, "",
        "Building 'n' from -a b into /h/plugins\n" ++
        "Registering /h/plugins/bin/n\n" ++
        "Could not start '=': gone\n" ++
        "Error: Registration failed with exit code 127: " ++
        "= --commands register \"/h/plugins/bin/n\"\n" ++
        "=: gone\n",
        [⟨["", "install", "--path", "-a b", "--root", "/h/plugins"], some false⟩,
          ⟨["=", "--commands", "register \"/h/plugins/bin/n\""], some false⟩]⟩ := by
  have h := run_refines_install dashedWorld "-a b/p" (H := "/h") (C := "") (X := "=") (by decide)
    (by decide) (by decide) (by decide)
  exact h.1.trans (by decide +kernel)

end NuPlugin.CommandLine

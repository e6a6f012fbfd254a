import NuPlugin.CommandLine.Run
import NuPlugin.Proofs.CommandLine.Reading
import NuPlugin.Proofs.Install

/-!
# What a request does

A request with settings plans or installs with them, and its answer follows from that execution.
-/

namespace NuPlugin.CommandLine

namespace Request

theorem ofArguments_of_readAll {arguments : List String} {classified : List Argument}
    {reading : Reading} (hclass : Argument.classifyAll arguments = .ok classified)
    (hread : Reading.start.readAll classified = .ok reading) :
    ofArguments arguments = reading.finish := by
  unfold ofArguments
  rw [hclass, mapError_ok, ok_bind, hread, ok_bind]

/-- Options with their values, and the package file behind the separator or, unless it begins with
a dash, on its own. -/
theorem ofArguments_giveAll {values : List (OptionName × String)}
    (hvalues : ∀ v ∈ values, v.1.takesValue = true) {tail : List String} {file : String}
    (htail : tail = ["--", file] ∨ tail = [file] ∧ file.toList.head? ≠ some '-') :
    ofArguments (values.map (fun v => v.1.long ++ "=" ++ v.2) ++ tail) =
      Reading.finish { Reading.start.giveAll values with packageFile := some file } := by
  have hnone := Reading.start.giveAll_packageFile values
  have hread := Reading.readAll_packageFile hnone file
  rcases htail with rfl | ⟨rfl, hfile⟩
  · apply ofArguments_of_readAll
    · rw [Argument.classifyAll_valued_append, Argument.classifyAll_separator]
      rfl
    · rw [Reading.readAll_valued_append _ hvalues]
      exact hread.1
  · apply ofArguments_of_readAll
    · rw [Argument.classifyAll_valued_append, Argument.classifyAll_of_head_ne hfile]
      rfl
    · rw [Reading.readAll_valued_append _ hvalues]
      exact hread.2

/-- No option is given the separator as its value. -/
def GivesValues (arguments : List String) : Prop :=
  ∀ classified, Argument.classifyAll arguments = .ok classified →
    ∀ o, Argument.option o (some "--") ∉ classified

theorem givesValues_of_classifyAll {arguments : List String} {classified : List Argument}
    (hclass : Argument.classifyAll arguments = .ok classified)
    (h : ∀ o, Argument.option o (some "--") ∉ classified) : GivesValues arguments := by
  intro classified' hclass'
  rw [← Except.ok.inj (hclass.symm.trans hclass')]
  exact h

theorem readAll_of_ofArguments {arguments : List String} {r : Request}
    (h : ofArguments arguments = .ok r) :
    ∃ classified reading, Argument.classifyAll arguments = .ok classified ∧
      Reading.start.readAll classified = .ok reading ∧ reading.finish = .ok r := by
  obtain ⟨classified, hclass, h⟩ := bind_eq_ok.1 h
  obtain ⟨reading, hread, h⟩ := bind_eq_ok.1 h
  exact ⟨classified, reading, mapError_eq_ok.1 hclass, hread, h⟩

theorem finish_eq_ok {reading : Reading} {r : Request} (h : reading.finish = .ok r) :
    reading.packageFile = some r.packageFile ∧ reading.unrecognized = [] ∧
      r = ⟨r.packageFile, reading.home, reading.cargo, reading.host, reading.dryRun,
        reading.quiet, reading.verbose⟩ := by
  unfold Reading.finish at h
  cases hfile : reading.packageFile with
  | none => simp [hfile] at h
  | some file =>
    simp only [hfile] at h
    split at h
    · next hall => exact Except.ok.inj h ▸ ⟨rfl, hall, rfl⟩
    · cases h

theorem values_of_givesValues {arguments : List String} {r : Request}
    (h : ofArguments arguments = .ok r) (hvalues : GivesValues arguments) :
    r.home ≠ some .nothing ∧ r.cargo ≠ some .nothing ∧ r.host ≠ some .nothing := by
  obtain ⟨classified, reading, hclass, hread, hfinish⟩ := readAll_of_ofArguments h
  have hkeeps := Reading.keeps_hasValues (hvalues classified hclass)
  have hreading := hkeeps.readAll (r := .start) ⟨nofun, nofun, nofun⟩ hread
  obtain ⟨-, -, hr⟩ := finish_eq_ok hfinish
  rw [hr]
  exact hreading

variable {r : Request} {w : World}

/-! ## Settings -/

theorem programName_value (s : String) : r.programName (.value s) = s := by
  rw [programName]
  exact ite_self _

theorem getD_programName (s : Option String) (default : String) :
    ((s.map Given.value).map r.programName).getD default = s.getD default := by
  cases s with
  | none => rfl
  | some s => exact programName_value s

theorem config_congr {r r' : Request} (env : Environment) (hhome : r'.home = r.home)
    (hcargo : r'.cargo.map r'.programName = r.cargo.map r.programName)
    (hhost : r'.host.map r'.programName = r.host.map r.programName) :
    r'.config env = r.config env := by
  rw [config, config, hhome, hcargo, hhost]

theorem config_of_home {H : String} (env : Environment) (h : r.home = some (.value H))
    (hH : H ≠ "") :
    r.config env =
      .ok { home := .ofString H, cargo := (r.cargo.map r.programName).getD "cargo",
            host := (r.host.map r.programName).getD "nu" } := by
  unfold config
  rw [h]
  simp only [Option.map_some, Given.word, Option.getD_some]
  rfl

theorem config_of_home_none (env : Environment) (h : r.home = none) :
    r.config env =
      (Config.homeFrom env).map fun home =>
        { home, cargo := (r.cargo.map r.programName).getD "cargo",
          host := (r.host.map r.programName).getD "nu" } := by
  unfold config
  rw [h]
  simp only [Option.map_none, Option.getD_none]
  cases Config.homeFrom env <;> rfl

theorem execute_of_config_ok {c : Config} (h : r.config w.env = .ok c) :
    r.execute w =
      if r.dryRun then .done (plan c w.files (.text r.packageFile)) w.queue
      else install c w.files (.subprocess r.quiet) (.text r.packageFile) w.queue := by
  unfold execute
  cases hroot : repoRoot (.text r.packageFile) with
  | error e =>
    have hplan : plan c w.files (.text r.packageFile) = .error (.install _) :=
      plan_of_repoRoot_error hroot
    rw [install_of_plan_error hplan, hplan, ite_self]
    simp only [hroot, error_bind, mapError_error, Execution.done_error_andThen]
  | ok root =>
    simp only [hroot, h, ok_bind, mapError_ok, Execution.done_ok_andThen]

theorem execute_of_config_error {e : InstallError} (h : r.config w.env = .error e) :
    r.execute w =
      match repoRoot (.text r.packageFile) with
      | .error e' => .done (.error (.install e')) w.queue
      | .ok _ => .done (.error (.install e)) w.queue := by
  unfold execute
  cases hroot : repoRoot (.text r.packageFile) with
  | error e' =>
    simp only [hroot, error_bind, mapError_error, Execution.done_error_andThen]
  | ok root =>
    simp only [hroot, h, ok_bind, mapError_error, Execution.done_error_andThen]

/-! ## Answers -/

theorem canTell_of_values (hcargo : r.cargo ≠ some .nothing) (hhost : r.host ≠ some .nothing)
    (e : InstallError) : r.canTell e = true := by
  cases e with
  | commandFailed purpose argv result => cases purpose <;> simp [canTell, hcargo, hhost]
  | _ => rfl

theorem answer_of_ok {p : Plan} (h : (r.execute w).outcome = .ok p) :
    r.answer w =
      .ok ⟨0, if r.dryRun then dryRunText p else installedText p,
        shownEvents r.threshold (r.execute w).events, (r.execute w).calls⟩ := by
  simp only [answer, h]

theorem answer_of_error {e : InstallError} (h : (r.execute w).outcome = .error (.install e))
    (htell : r.canTell e = true) :
    r.answer w =
      .ok ⟨1, "", shownEvents r.threshold (r.execute w).events ++ errorText e,
        (r.execute w).calls⟩ := by
  simp only [answer, h, htell, if_true]

theorem answer_of_failure {f : Failure} (h : (r.execute w).outcome = .error f)
    (hf : ∀ e, f ≠ .install e) : r.answer w = .error f := by
  cases f with
  | install e => exact absurd rfl (hf e)
  | _ => simp only [answer, h]

end Request

/-! ## Runs without an answer -/

theorem Request.answer_calls {r : Request} {w : World} {a : Answer} (h : r.answer w = .ok a) :
    a.calls = (r.execute w).calls := by
  unfold answer at h
  dsimp only at h
  split at h
  · exact Except.ok.inj h ▸ rfl
  · split at h
    · exact Except.ok.inj h ▸ rfl
    · cases h
  · cases h

section

variable {w : World} {r : Request} {f : Failure} {arguments : List String}

theorem run_eq_answer (hr : Request.ofArguments arguments = .ok r) :
    run w arguments = r.answer w := by
  rw [run, hr]

theorem finalAnswer_of_ok {a : Answer} (h : run w arguments = .ok a) :
    finalAnswer w arguments = a := by
  unfold run at h
  unfold finalAnswer
  split at h
  · exact Except.ok.inj h
  · rw [h]

theorem finalAnswer_of_error (hr : Request.ofArguments arguments = .ok r)
    (h : run w arguments = .error f) : finalAnswer w arguments = r.breakdown w f := by
  rw [run_eq_answer hr] at h
  rw [finalAnswer, hr]
  simp only [h]

theorem finalAnswer_calls (hr : Request.ofArguments arguments = .ok r) :
    (finalAnswer w arguments).calls = (r.execute w).calls := by
  cases hrun : run w arguments with
  | ok a =>
    rw [finalAnswer_of_ok hrun]
    exact Request.answer_calls (run_eq_answer hr ▸ hrun)
  | error f =>
    rw [finalAnswer_of_error hr hrun]
    rfl

theorem Request.execute_error_cases (h : (r.execute w).outcome = .error f) :
    (∃ e, f = .install e) ∨ f.IsOfManifest w.files (.text r.packageFile) ∨
      r.dryRun = false ∧ f.IsOfCommand w.queue := by
  cases hc : r.config w.env with
  | error e =>
    rw [execute_of_config_error hc] at h
    split at h <;> exact .inl ⟨_, (Except.error.inj h).symm⟩
  | ok c =>
    rw [execute_of_config_ok hc] at h
    split at h
    · exact (plan_error_cases h).imp_right .inl
    · next hdry =>
      exact (install_error_cases h).imp_right (Or.imp_right (⟨Bool.eq_false_iff.2 hdry, ·⟩))

theorem run_of_isOfManifest {c : Config} (hr : Request.ofArguments arguments = .ok r)
    (hc : r.config w.env = .ok c) (h : f.IsOfManifest w.files (.text r.packageFile)) :
    run w arguments = .error f := by
  have hplan := plan_of_isOfManifest c h
  have houtcome : (r.execute w).outcome = .error f := by
    rw [Request.execute_of_config_ok hc, install_of_plan_error hplan, hplan, ite_self]
    rfl
  rw [run_eq_answer hr]
  exact Request.answer_of_failure houtcome h.ne_install

/-- A run that gives no answer met a manifest or a command that leaves no error to tell, or was not
given the name of a program that failed. -/
theorem run_error_cases (h : run w arguments = .error f) :
    ∃ r, Request.ofArguments arguments = .ok r ∧
      (f.IsOfManifest w.files (.text r.packageFile) ∨
        r.dryRun = false ∧ f.IsOfCommand w.queue ∨
        f = .namelessProgram ∧ (r.cargo = some .nothing ∨ r.host = some .nothing)) := by
  cases hr : Request.ofArguments arguments with
  | error stop =>
    rw [run, hr] at h
    cases h
  | ok r =>
    rw [run_eq_answer hr] at h
    refine ⟨r, rfl, ?_⟩
    cases houtcome : (r.execute w).outcome with
    | ok p =>
      rw [Request.answer_of_ok houtcome] at h
      cases h
    | error f' =>
      by_cases htold : ∃ e, f' = .install e
      · obtain ⟨e, rfl⟩ := htold
        simp only [Request.answer, houtcome] at h
        split at h
        · cases h
        · next htell =>
          refine .inr (.inr ⟨(Except.error.inj h).symm, ?_⟩)
          by_contra hgiven
          obtain ⟨hcargo, hhost⟩ := not_or.1 hgiven
          exact htell (Request.canTell_of_values hcargo hhost e)
      · rw [Request.answer_of_failure houtcome (not_exists.1 htold)] at h
        obtain rfl := Except.error.inj h
        rcases (Request.execute_error_cases houtcome).resolve_left htold with hmanifest | hcommand
        · exact .inl hmanifest
        · exact .inr (.inl hcommand)

/-- As long as every option has a value, only a value in the way keeps a run from an answer. -/
theorem run_eq_finalAnswer_or (hr : Request.ofArguments arguments = .ok r)
    (hcargo : r.cargo ≠ some .nothing) (hhost : r.host ≠ some .nothing) :
    run w arguments = .ok (finalAnswer w arguments) ∨
      ∃ f, run w arguments = .error f ∧ f.IsOfValue := by
  cases hrun : run w arguments with
  | ok a => exact .inl (by rw [finalAnswer_of_ok hrun])
  | error f =>
    obtain ⟨r', hr', hcases⟩ := run_error_cases hrun
    obtain rfl := Except.ok.inj (hr.symm.trans hr')
    refine .inr ⟨f, rfl, ?_⟩
    rcases hcases with hmanifest | ⟨-, hcommand⟩ | ⟨-, hnothing⟩
    · exact hmanifest.isOfValue
    · exact hcommand.isOfValue
    · exact absurd hnothing (not_or.2 ⟨hcargo, hhost⟩)

end

end NuPlugin.CommandLine

import NuPlugin.Proofs.CommandLine.Request

/-!
# Plans of requests

A request is about one plan. Where that plan cannot be made, the request ends with its failure,
and where it can, a dry run shows it and any other run carries it out.
-/

namespace NuPlugin.CommandLine.Request

/-- The plan that a request is about, with the settings it asks for. -/
def planned (r : Request) (w : World) : Except Failure Plan :=
  match repoRoot (.text r.packageFile), r.config w.env with
  | .error e, _ => .error (.install e)
  | .ok _, .error e => .error (.install e)
  | .ok _, .ok c => plan c w.files (.text r.packageFile)

variable {r : Request} {w : World}

theorem planned_of_config_ok {c : Config} (h : r.config w.env = .ok c) :
    r.planned w = plan c w.files (.text r.packageFile) := by
  rw [planned, h]
  cases hroot : repoRoot (.text r.packageFile) with
  | error e => exact (plan_of_repoRoot_error hroot).symm
  | ok root => rfl

theorem planned_error_cases {f : Failure} (h : r.planned w = .error f) :
    (∃ e, f = .install e) ∨ f.IsOfManifest w.files (.text r.packageFile) := by
  cases hc : r.config w.env with
  | ok c => exact plan_error_cases (planned_of_config_ok hc ▸ h)
  | error e =>
    rw [planned, hc] at h
    cases hroot : repoRoot (.text r.packageFile) with
    | error e' => exact Or.inl ⟨e', by rw [hroot] at h; exact (Except.error.inj h).symm⟩
    | ok root => exact Or.inl ⟨e, by rw [hroot] at h; exact (Except.error.inj h).symm⟩

theorem execute_of_planned_error {f : Failure} (h : r.planned w = .error f) :
    r.execute w = .done (.error f) w.queue := by
  cases hc : r.config w.env with
  | error e =>
    rw [execute_of_config_error hc]
    rw [planned, hc] at h
    cases hroot : repoRoot (.text r.packageFile) with
    | error e' =>
      rw [hroot] at h
      exact Except.error.inj h ▸ rfl
    | ok root =>
      rw [hroot] at h
      exact Except.error.inj h ▸ rfl
  | ok c =>
    rw [planned_of_config_ok hc] at h
    rw [execute_of_config_ok hc, install_of_plan_error h, h, ite_self]

theorem execute_of_planned_ok {p : Plan} (h : r.planned w = .ok p) :
    ∃ c, r.config w.env = .ok c ∧ plan c w.files (.text r.packageFile) = .ok p ∧
      r.execute w =
        if r.dryRun then .done (.ok p) w.queue
        else p.carryOut c.host (.subprocess r.quiet) w.queue := by
  cases hc : r.config w.env with
  | error e =>
    rw [planned, hc] at h
    cases hroot : repoRoot (.text r.packageFile) <;> simp [hroot] at h
  | ok c =>
    rw [planned_of_config_ok hc] at h
    exact ⟨c, rfl, h, by rw [execute_of_config_ok hc, install_of_plan_ok h, h]⟩

theorem execute_of_dry {p : Plan} (hplan : r.planned w = .ok p) (hdry : r.dryRun = true) :
    r.execute w = .done (.ok p) w.queue := by
  obtain ⟨c, -, -, hexecute⟩ := execute_of_planned_ok hplan
  rw [hexecute, hdry, if_pos rfl]

section

variable {p : Plan} (hplan : r.planned w = .ok p) (hdry : r.dryRun = false)

include hplan hdry

theorem execute_of_not_dry :
    ∃ c, r.config w.env = .ok c ∧ p.buildArgv ≠ [] ∧ p.registerArgv ≠ [] ∧
      r.execute w = p.carryOut c.host (.subprocess r.quiet) w.queue := by
  obtain ⟨c, hc, hfits, hexecute⟩ := execute_of_planned_ok hplan
  rw [hdry, if_neg Bool.false_ne_true] at hexecute
  exact ⟨c, hc, buildArgv_ne_nil hfits, registerArgv_ne_nil hfits, hexecute⟩

theorem execute_of_build_failed (hbuild : ¬ (replyAt w.queue 0).EndsWell) :
    r.execute w =
      ⟨.error ((Runner.subprocess r.quiet).failure .build p.buildArgv (replyAt w.queue 0)),
        [(Runner.subprocess r.quiet).call p.buildArgv],
        p.buildEvents (.subprocess r.quiet) w.queue, w.queue.drop 1⟩ := by
  obtain ⟨c, -, hb, -, hexecute⟩ := execute_of_not_dry hplan hdry
  rw [hexecute, Plan.carryOut_of_build_failed hb hbuild]

theorem execute_of_registration_failed (hbuild : (replyAt w.queue 0).EndsWell)
    (hregister : ¬ (replyAt w.queue 1).EndsWell) :
    r.execute w =
      ⟨.error
          ((Runner.subprocess r.quiet).failure .registration p.registerArgv (replyAt w.queue 1)),
        [(Runner.subprocess r.quiet).call p.buildArgv,
          (Runner.subprocess r.quiet).call p.registerArgv],
        p.buildEvents (.subprocess r.quiet) w.queue ++
          p.registrationEvents (.subprocess r.quiet) w.queue, w.queue.drop 2⟩ := by
  obtain ⟨c, -, hb, hr, hexecute⟩ := execute_of_not_dry hplan hdry
  rw [hexecute, Plan.carryOut_of_registration_failed hb hr hbuild hregister]

theorem execute_of_installed {c : Config} (hc : r.config w.env = .ok c)
    (hbuild : (replyAt w.queue 0).EndsWell) (hregister : (replyAt w.queue 1).EndsWell) :
    r.execute w =
      ⟨.ok p,
        [(Runner.subprocess r.quiet).call p.buildArgv,
          (Runner.subprocess r.quiet).call p.registerArgv],
        p.buildEvents (.subprocess r.quiet) w.queue ++
          p.registrationEvents (.subprocess r.quiet) w.queue ++ [.restart c.host p.packageName],
        w.queue.drop 2⟩ := by
  obtain ⟨c', hc', hb, hr, hexecute⟩ := execute_of_not_dry hplan hdry
  obtain rfl := Except.ok.inj (hc'.symm.trans hc)
  rw [hexecute, Plan.carryOut_of_installed hb hr hbuild hregister]

theorem execute_calls :
    (r.execute w).calls =
      if (replyAt w.queue 0).EndsWell then
        [(Runner.subprocess r.quiet).call p.buildArgv,
          (Runner.subprocess r.quiet).call p.registerArgv]
      else [(Runner.subprocess r.quiet).call p.buildArgv] := by
  obtain ⟨c, -, hb, hr, hexecute⟩ := execute_of_not_dry hplan hdry
  rw [hexecute, Plan.carryOut_calls hb hr]

end

/-! ## Answers -/

theorem answer_of_planned_error (hcargo : r.cargo ≠ some .nothing)
    (hhost : r.host ≠ some .nothing) {e : InstallError}
    (h : r.planned w = .error (.install e)) : r.answer w = .ok ⟨1, "", errorText e, []⟩ := by
  have hexecute := execute_of_planned_error h
  have houtcome : (r.execute w).outcome = .error (.install e) := by rw [hexecute]; rfl
  rw [answer_of_error houtcome (canTell_of_values hcargo hhost e), hexecute]
  simp [shownEvents, Execution.done]

theorem answer_dry_of_planned_ok {p : Plan} (hdry : r.dryRun = true) (h : r.planned w = .ok p) :
    r.answer w = .ok ⟨0, dryRunText p, "", []⟩ := by
  have hexecute := execute_of_dry h hdry
  have houtcome : (r.execute w).outcome = .ok p := by rw [hexecute]; rfl
  rw [answer_of_ok houtcome, hdry, if_pos rfl, hexecute]
  simp [shownEvents, Execution.done]

end NuPlugin.CommandLine.Request

import NuPlugin.Proofs.Plan
import NuPlugin.Proofs.Runner
import NuPlugin.Session

/-!
# Installing as a state machine

A plan that cannot be made runs nothing. One that can is carried out command by command, and the
first command that does not end well is the last.
-/

namespace NuPlugin

/-! ## Carrying out a plan -/

theorem tail_tail (queue : List Reply) : queue.tail.tail = queue.drop 2 := by
  rw [← List.drop_one, ← List.drop_one, List.drop_drop]

namespace Plan

def buildEvents (p : Plan) (runner : Runner) (queue : List Reply) : List Event :=
  .building p.packageName p.repoRoot p.installRoot :: runner.records p.buildArgv (replyAt queue 0)

def registrationEvents (p : Plan) (runner : Runner) (queue : List Reply) : List Event :=
  .registering p.binary :: runner.records p.registerArgv (replyAt queue 1)

variable {p : Plan} {host : String} {runner : Runner} {queue : List Reply}

theorem carryOut_of_build_failed (hbuild : p.buildArgv ≠ []) (h : ¬ (replyAt queue 0).EndsWell) :
    p.carryOut host runner queue =
      ⟨.error (runner.failure .build p.buildArgv (replyAt queue 0)), [runner.call p.buildArgv],
        p.buildEvents runner queue, queue.drop 1⟩ := by
  rw [carryOut, Execution.say, Execution.ok_andThen, Runner.require_of_ne_nil runner .build hbuild,
    if_neg h, Execution.error_andThen, List.drop_one]
  rfl

section

variable (hbuild : p.buildArgv ≠ []) (hregister : p.registerArgv ≠ [])

include hbuild hregister

theorem carryOut_of_registration_failed (hb : (replyAt queue 0).EndsWell)
    (h : ¬ (replyAt queue 1).EndsWell) :
    p.carryOut host runner queue =
      ⟨.error (runner.failure .registration p.registerArgv (replyAt queue 1)),
        [runner.call p.buildArgv, runner.call p.registerArgv],
        p.buildEvents runner queue ++ p.registrationEvents runner queue, queue.drop 2⟩ := by
  rw [carryOut, Execution.say, Execution.ok_andThen, Runner.require_of_ne_nil runner .build hbuild,
    if_pos hb, Execution.ok_andThen, Execution.say, Execution.ok_andThen,
    Runner.require_of_ne_nil runner .registration hregister, replyAt_tail, if_neg h,
    Execution.error_andThen, tail_tail]
  rfl

theorem carryOut_of_installed (hb : (replyAt queue 0).EndsWell) (h : (replyAt queue 1).EndsWell) :
    p.carryOut host runner queue =
      ⟨.ok p, [runner.call p.buildArgv, runner.call p.registerArgv],
        p.buildEvents runner queue ++ p.registrationEvents runner queue ++
          [.restart host p.packageName], queue.drop 2⟩ := by
  rw [carryOut, Execution.say, Execution.ok_andThen, Runner.require_of_ne_nil runner .build hbuild,
    if_pos hb, Execution.ok_andThen, Execution.say, Execution.ok_andThen,
    Runner.require_of_ne_nil runner .registration hregister, replyAt_tail, if_pos h,
    Execution.ok_andThen, Execution.say, Execution.ok_andThen, tail_tail]
  simp [Execution.done, buildEvents, registrationEvents]

theorem carryOut_calls :
    (p.carryOut host runner queue).calls =
      if (replyAt queue 0).EndsWell then [runner.call p.buildArgv, runner.call p.registerArgv]
      else [runner.call p.buildArgv] := by
  by_cases hb : (replyAt queue 0).EndsWell
  · rw [if_pos hb]
    by_cases hr : (replyAt queue 1).EndsWell
    · rw [carryOut_of_installed hbuild hregister hb hr]
    · rw [carryOut_of_registration_failed hbuild hregister hb hr]
  · rw [if_neg hb, carryOut_of_build_failed hbuild hb]

end

end Plan

/-- The failure is met by the build or, behind a build that ended well, by the registration, and
leaves no error to tell: an exit code is too long, or a command was refused. -/
def Failure.IsOfCommand (f : Failure) (queue : List Reply) : Prop :=
  (replyAt queue 0).breakdown? = some f ∨
    (replyAt queue 0).EndsWell ∧ (replyAt queue 1).breakdown? = some f

theorem Reply.isOfValue_of_breakdown? {reply : Reply} {f : Failure}
    (h : reply.breakdown? = some f) : f.IsOfValue := by
  cases reply with
  | exited code stdout stderr =>
    obtain ⟨-, rfl⟩ := breakdown?_exited_eq_some.1 h
    exact .inl trivial
  | notStarted e => cases h
  | refused reason => exact .inr ⟨reason, (Option.some.inj h).symm⟩

theorem Failure.IsOfCommand.isOfValue {f : Failure} {queue : List Reply}
    (h : f.IsOfCommand queue) : f.IsOfValue := by
  rcases h with h | ⟨-, h⟩ <;> exact Reply.isOfValue_of_breakdown? h

theorem Runner.failure_cases (runner : Runner) (purpose : Purpose) (argv : List String)
    (reply : Reply) :
    (∃ result, runner.failure purpose argv reply = .install (.commandFailed purpose argv result)) ∨
      reply.breakdown? = some (runner.failure purpose argv reply) := by
  cases h : reply.breakdown? with
  | none =>
    obtain ⟨result, -, -, hfailure⟩ := runner.exists_failure_eq purpose argv h
    exact .inl ⟨result, hfailure⟩
  | some f => exact .inr (congrArg some (runner.failure_of_breakdown? purpose argv h).symm)

theorem Runner.breakdown?_eq_none {runner : Runner} {purpose : Purpose} {argv : List String}
    {reply : Reply} (h : ¬ (runner.failure purpose argv reply).IsOfValue) :
    reply.breakdown? = none := by
  rw [Option.eq_none_iff_forall_ne_some]
  intro f hf
  rw [runner.failure_of_breakdown? purpose argv hf] at h
  exact h (Reply.isOfValue_of_breakdown? hf)

section

variable {p : Plan} {host : String} {runner : Runner} {queue : List Reply} {f : Failure}
  (hbuild : p.buildArgv ≠ []) (hregister : p.registerArgv ≠ [])

include hbuild hregister

theorem Plan.carryOut_error_cases (h : (p.carryOut host runner queue).outcome = .error f) :
    (∃ e, f = .install e) ∨ f.IsOfCommand queue := by
  by_cases hb : (replyAt queue 0).EndsWell
  · by_cases hr : (replyAt queue 1).EndsWell
    · rw [carryOut_of_installed hbuild hregister hb hr] at h
      cases h
    · rw [carryOut_of_registration_failed hbuild hregister hb hr] at h
      obtain rfl := Except.error.inj h
      rcases runner.failure_cases .registration p.registerArgv (replyAt queue 1) with ⟨r, hr⟩ | hr
      · exact .inl ⟨_, hr⟩
      · exact .inr (.inr ⟨hb, hr⟩)
  · rw [carryOut_of_build_failed hbuild hb] at h
    obtain rfl := Except.error.inj h
    rcases runner.failure_cases .build p.buildArgv (replyAt queue 0) with ⟨r, hr⟩ | hr
    · exact .inl ⟨_, hr⟩
    · exact .inr (.inl hr)

theorem Plan.carryOut_of_isOfCommand (h : f.IsOfCommand queue) :
    (p.carryOut host runner queue).outcome = .error f := by
  rcases h with h | ⟨hb, h⟩
  · rw [carryOut_of_build_failed hbuild (Reply.not_endsWell_of_breakdown? h),
      runner.failure_of_breakdown? _ _ h]
  · rw [carryOut_of_registration_failed hbuild hregister hb (Reply.not_endsWell_of_breakdown? h),
      runner.failure_of_breakdown? _ _ h]

end

/-! ## Installing -/

section

variable {c : Config} {files : Files} {file : PackageFile}

theorem install_of_plan_error {f : Failure} (h : plan c files file = .error f) (runner : Runner)
    (queue : List Reply) : install c files runner file queue = .done (.error f) queue := by
  rw [install, h, Execution.done_error_andThen]

theorem install_of_plan_ok {p : Plan} (h : plan c files file = .ok p) (runner : Runner)
    (queue : List Reply) :
    install c files runner file queue = p.carryOut c.host runner queue := by
  rw [install, h, Execution.done_ok_andThen]

theorem buildArgv_ne_nil {p : Plan} (h : plan c files file = .ok p) : p.buildArgv ≠ [] := by
  rw [(plan_eq_ok_iff.1 h).buildArgv]
  exact List.cons_ne_nil _ _

theorem registerArgv_ne_nil {p : Plan} (h : plan c files file = .ok p) : p.registerArgv ≠ [] := by
  rw [(plan_eq_ok_iff.1 h).registerArgv]
  exact List.cons_ne_nil _ _

theorem call_of_mem_install_calls {runner : Runner} {queue : List Reply} {call : Call}
    (h : call ∈ (install c files runner file queue).calls) : call = runner.call call.argv := by
  cases hp : plan c files file with
  | error f =>
    rw [install_of_plan_error hp] at h
    simp [Execution.done] at h
  | ok p =>
    rw [install_of_plan_ok hp,
      Plan.carryOut_calls (buildArgv_ne_nil hp) (registerArgv_ne_nil hp)] at h
    split at h
    · rw [List.mem_cons, List.mem_singleton] at h
      rcases h with rfl | rfl <;> rw [Runner.call_argv]
    · rw [List.mem_singleton.1 h, Runner.call_argv]

variable {f : Failure}

theorem install_error_cases {runner : Runner} {queue : List Reply}
    (h : (install c files runner file queue).outcome = .error f) :
    (∃ e, f = .install e) ∨ f.IsOfManifest files file ∨ f.IsOfCommand queue := by
  cases hp : plan c files file with
  | error f' =>
    rw [install_of_plan_error hp] at h
    exact (Except.error.inj h ▸ plan_error_cases hp).imp_right .inl
  | ok p =>
    rw [install_of_plan_ok hp] at h
    have hbuild := buildArgv_ne_nil hp
    exact (Plan.carryOut_error_cases hbuild (registerArgv_ne_nil hp) h).imp_right .inr

theorem install_error_isOfValue {runner : Runner} {queue : List Reply}
    (h : (install c files runner file queue).outcome = .error f) :
    (∃ e, f = .install e) ∨ f.IsOfValue :=
  (install_error_cases h).imp_right fun hcases =>
    hcases.elim (·.isOfValue) (·.isOfValue)

theorem install_error_iff {runner : Runner} {queue : List Reply} :
    ((install c files runner file queue).outcome = .error f ∧ ∀ e, f ≠ .install e) ↔
      f.IsOfManifest files file ∨ (∃ p, plan c files file = .ok p) ∧ f.IsOfCommand queue := by
  cases hp : plan c files file with
  | error f' =>
    rw [install_of_plan_error hp, ← plan_error_iff (c := c), hp]
    simp [Execution.done]
  | ok p =>
    have hbuild := buildArgv_ne_nil hp
    have hregister := registerArgv_ne_nil hp
    rw [install_of_plan_ok hp, ← plan_error_iff (c := c), hp]
    constructor
    · rintro ⟨h, hf⟩
      have hcases := Plan.carryOut_error_cases hbuild hregister h
      exact .inr ⟨⟨p, rfl⟩, hcases.resolve_left (not_exists.2 hf)⟩
    · rintro (⟨h, -⟩ | ⟨-, h⟩)
      · cases h
      · exact ⟨Plan.carryOut_of_isOfCommand hbuild hregister h, h.isOfValue.ne_install⟩

/-! ## Installing on its own -/

variable {settings : Option Config} {env : Environment} {runner : Runner} {queue : List Reply}
  {e : InstallError} {root home : Path}

theorem installWith_of_repoRoot_error (settings : Option Config) (h : repoRoot file = .error e) :
    installWith settings env files runner file queue = .done (.error (.install e)) queue := by
  unfold installWith
  rw [h, mapError_error, Execution.done_error_andThen]

theorem installWith_some (c : Config) :
    installWith (some c) env files runner file queue = install c files runner file queue := by
  cases hroot : repoRoot file with
  | error e =>
    rw [installWith_of_repoRoot_error _ hroot, install_of_plan_error (plan_of_repoRoot_error hroot)]
  | ok root =>
    simp only [installWith, hroot, mapError_ok, Execution.done_ok_andThen]

theorem installWith_none_of_home_error (hroot : repoRoot file = .ok root)
    (h : Config.homeFrom env = .error e) :
    installWith none env files runner file queue = .done (.error (.install e)) queue := by
  simp only [installWith, hroot, mapError_ok, Execution.done_ok_andThen, h, map_error,
    mapError_error, Execution.done_error_andThen]

theorem installWith_none_of_home_ok (hroot : repoRoot file = .ok root)
    (h : Config.homeFrom env = .ok home) :
    installWith none env files runner file queue =
      install { home } files runner file queue := by
  simp only [installWith, hroot, mapError_ok, Execution.done_ok_andThen, h, map_ok]

theorem installWith_error_cases
    (h : (installWith settings env files runner file queue).outcome = .error f) :
    (∃ e, f = .install e) ∨ f.IsOfManifest files file ∨ f.IsOfCommand queue := by
  cases settings with
  | some c =>
    rw [installWith_some] at h
    exact install_error_cases h
  | none =>
    cases hroot : repoRoot file with
    | error e =>
      rw [installWith_of_repoRoot_error _ hroot] at h
      exact .inl ⟨e, (Except.error.inj h).symm⟩
    | ok root =>
      cases hhome : Config.homeFrom env with
      | error e =>
        rw [installWith_none_of_home_error hroot hhome] at h
        exact .inl ⟨e, (Except.error.inj h).symm⟩
      | ok home =>
        rw [installWith_none_of_home_ok hroot hhome] at h
        exact install_error_cases h

end

/-! ## One step of a session -/

namespace Session

theorem carry_outcome (s : Session) (e : Execution Plan) :
    (s.carry e).2.outcome = e.outcome.map .planned := by
  obtain ⟨outcome, calls, events, queue⟩ := e
  cases outcome <;> rfl

def buildResult (s : Session) (p : Plan) : Except Failure CommandResult :=
  s.runner.result p.buildArgv (replyAt s.queue 0)

end Session

end NuPlugin

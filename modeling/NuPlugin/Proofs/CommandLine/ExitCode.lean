import NuPlugin.Proofs.CommandLine.Planning
import Mathlib.Algebra.Group.Int.Defs

/-!
# Exit codes

A run exits with 0 only if all that it started ended well, with 1 behind the first command that
did not, and with 2 before anything is started.
-/

namespace NuPlugin.CommandLine

structure Answer.IsSound (a : Answer) (w : World) (arguments : List String) : Prop where
  exitCode : a.exitCode = 0 ∨ a.exitCode = 1 ∨ a.exitCode = 2
  succeeded_iff : a.exitCode = 0 ↔
    Request.ofArguments arguments = .error .help ∨ Request.ofArguments arguments = .error .version ∨
      ∃ r p, Request.ofArguments arguments = .ok r ∧ r.planned w = .ok p ∧
        (r.dryRun = true ∨ (replyAt w.queue 0).EndsWell ∧ (replyAt w.queue 1).EndsWell)
  misused_iff : a.exitCode = 2 ↔ ∃ m, Request.ofArguments arguments = .error (.misuse m)
  misused : a.exitCode = 2 → a.calls = [] ∧ a.stdout = ""
  failed : ∀ i < a.calls.length, ¬ (replyAt w.queue i).EndsWell →
    a.exitCode = 1 ∧ a.calls.length = i + 1
  installed : a.exitCode = 0 → a.calls ≠ [] →
    a.calls.length = 2 ∧ (replyAt w.queue 0).EndsWell ∧ (replyAt w.queue 1).EndsWell
  silent : a.exitCode ≠ 0 → a.stdout = ""
  idle : a.exitCode = 0 → a.calls = [] →
    Request.ofArguments arguments = .error .help ∨ Request.ofArguments arguments = .error .version ∨
      ∃ r, Request.ofArguments arguments = .ok r ∧ r.dryRun = true

section

variable {w : World} {arguments : List String} {r : Request} {a : Answer}

theorem Stop.answer_isSound {stop : Stop} (h : Request.ofArguments arguments = .error stop) :
    stop.answer.IsSound w arguments := by
  cases stop <;> constructor <;> simp [answer, h]

def exitCodeOf (e : Execution Plan) : Nat :=
  match e.outcome with
  | .ok _ => 0
  | .error _ => 1

theorem Answer.isSound_of_execute (hr : Request.ofArguments arguments = .ok r)
    (hexit : a.exitCode = exitCodeOf (r.execute w)) (hcalls : a.calls = (r.execute w).calls)
    (hsilent : a.exitCode ≠ 0 → a.stdout = "") : a.IsSound w arguments := by
  cases hplan : r.planned w with
  | error f =>
    rw [Request.execute_of_planned_error hplan] at hexit hcalls
    constructor <;> simp_all [exitCodeOf, Execution.done]
  | ok p =>
    cases hdry : r.dryRun with
    | true =>
      rw [Request.execute_of_dry hplan hdry] at hexit hcalls
      constructor <;> simp_all [exitCodeOf, Execution.done]
    | false =>
      by_cases hbuild : (replyAt w.queue 0).EndsWell
      · have hone : ∀ i < 2, ¬ (replyAt w.queue i).EndsWell → i = 1 := by
          intro i hi hend
          have hne : i ≠ 0 := fun h => hend (h ▸ hbuild)
          omega
        by_cases hregister : (replyAt w.queue 1).EndsWell
        · obtain ⟨c, hc, -, -, -⟩ := Request.execute_of_not_dry hplan hdry
          rw [Request.execute_of_installed hplan hdry hc hbuild hregister] at hexit hcalls
          have hnone : ∀ i < 2, (replyAt w.queue i).EndsWell := by
            intro i hi
            by_contra hend
            exact hend (hone i hi hend ▸ hregister)
          constructor <;> simp_all [exitCodeOf]
        · rw [Request.execute_of_registration_failed hplan hdry hbuild hregister] at hexit hcalls
          constructor <;> simp_all [exitCodeOf]
      · rw [Request.execute_of_build_failed hplan hdry hbuild] at hexit hcalls
        constructor <;> simp_all [exitCodeOf]

theorem Request.answer_of_outcome_error {f : Failure} (h : (r.execute w).outcome = .error f)
    (ha : r.answer w = .ok a) : a.exitCode = 1 ∧ a.stdout = "" := by
  unfold answer at ha
  dsimp only at ha
  rw [h] at ha
  split at ha
  · next hok => cases hok
  · split at ha
    · exact Except.ok.inj ha ▸ ⟨rfl, rfl⟩
    · cases ha
  · cases ha

theorem finalAnswer_of_outcome (hr : Request.ofArguments arguments = .ok r) :
    (finalAnswer w arguments).exitCode = exitCodeOf (r.execute w) ∧
      ((finalAnswer w arguments).exitCode ≠ 0 → (finalAnswer w arguments).stdout = "") := by
  unfold finalAnswer exitCodeOf
  rw [hr]
  dsimp only
  cases houtcome : (r.execute w).outcome with
  | ok p => simp [Request.answer_of_ok houtcome]
  | error f =>
    cases ha : r.answer w with
    | ok a =>
      obtain ⟨hexit, hout⟩ := Request.answer_of_outcome_error houtcome ha
      exact ⟨hexit, fun _ => hout⟩
    | error f' => exact ⟨rfl, fun _ => rfl⟩

theorem finalAnswer_isSound (w : World) (arguments : List String) :
    (finalAnswer w arguments).IsSound w arguments := by
  cases hr : Request.ofArguments arguments with
  | error stop =>
    rw [finalAnswer, hr]
    exact Stop.answer_isSound hr
  | ok r =>
    obtain ⟨hexit, hsilent⟩ := finalAnswer_of_outcome (w := w) hr
    exact Answer.isSound_of_execute hr hexit (finalAnswer_calls hr) hsilent

end

/-- Unless an integer of too many digits breaks it off, every run ends with an exit code that tells
how it went, be it without an answer since a text was refused. -/
theorem run_isSound (w : World) {arguments : List String}
    (hvalues : Request.GivesValues arguments)
    (hlength : ∀ f, run w arguments = .error f → ¬ f.IsOfLength) :
    (∃ a, run w arguments = .ok a ∧ a.IsSound w arguments) ∨
      ∃ reason, run w arguments = .error (.refused reason) ∧
        (finalAnswer w arguments).IsSound w arguments := by
  have hsound := finalAnswer_isSound w arguments
  cases hr : Request.ofArguments arguments with
  | error stop =>
    have hrun : run w arguments = .ok stop.answer := by rw [run, hr]
    exact .inl ⟨_, hrun, finalAnswer_of_ok hrun ▸ hsound⟩
  | ok r =>
    obtain ⟨-, hcargo, hhost⟩ := Request.values_of_givesValues hr hvalues
    rcases run_eq_finalAnswer_or (w := w) hr hcargo hhost with hrun | ⟨f, hrun, hvalue⟩
    · exact .inl ⟨_, hrun, hsound⟩
    · obtain ⟨reason, rfl⟩ := hvalue.resolve_left (hlength f hrun)
      exact .inr ⟨reason, hrun, hsound⟩

/-- A host that refuses the plugin with an exit code beyond 64 bits. -/
def hugeWorld : World where
  env _ := none
  files path := if path = "a/Cargo.toml" then some (.ofText "package.name = 'n'\n") else none
  queue := [.exited 0 none none, .exited (2 ^ 70) none none]

theorem run_isSound_hugeWorld :
    ∃ a, run hugeWorld ["-v", "--home=/h", "a/p"] = .ok a ∧ a.calls.length = 2 ∧
      a.exitCode = 1 ∧ a.stdout = "" := by
  have hclass : Argument.classifyAll ["-v", "--home=/h", "a/p"] =
      .ok [.option .verbose none, .option .home (some "/h"), .positional "a/p"] := by
    decide +kernel
  have hvalues : Request.GivesValues ["-v", "--home=/h", "a/p"] :=
    Request.givesValues_of_classifyAll hclass (by simp)
  have hrun : (run hugeWorld ["-v", "--home=/h", "a/p"]).map (·.calls.length) = .ok 2 := by
    decide +kernel
  obtain ⟨answer, hanswer, hcalls⟩ := map_eq_ok.1 hrun
  have hsound : answer.IsSound hugeWorld ["-v", "--home=/h", "a/p"] := by
    rcases run_isSound hugeWorld hvalues (by rw [hanswer]; exact nofun) with
      ⟨a, ha, hsound⟩ | ⟨reason, hrefused, -⟩
    · exact Except.ok.inj (hanswer.symm.trans ha) ▸ hsound
    · rw [hanswer] at hrefused
      cases hrefused
  have hfailed : ¬ (replyAt hugeWorld.queue 1).EndsWell :=
    show ¬ (2 ^ 70 : Int) = 0 by decide
  have hexit := (hsound.failed 1 (by rw [hcalls]; decide) hfailed).1
  exact ⟨answer, hanswer, hcalls, hexit, hsound.silent (by rw [hexit]; decide)⟩

end NuPlugin.CommandLine

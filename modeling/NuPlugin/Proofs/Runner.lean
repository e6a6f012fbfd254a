import NuPlugin.Runner

/-!
# What a command gives

The reply that a command meets decides what is left of it and what is said of it. `run_of_ne_nil`
and `require_of_ne_nil` are all that the rest of the theory knows of running a command.
-/

namespace NuPlugin

/-! ## Executions -/

namespace Execution

variable {α β : Type}

@[simp] theorem done_ok_andThen (a : α) (queue : List Reply)
    (next : α → List Reply → Execution β) : (done (.ok a) queue).andThen next = next a queue := rfl

@[simp] theorem done_error_andThen (f : Failure) (queue : List Reply)
    (next : α → List Reply → Execution β) :
    (done (.error f) queue).andThen next = done (.error f) queue := rfl

theorem ok_andThen (a : α) (calls : List Call) (events : List Event) (queue : List Reply)
    (next : α → List Reply → Execution β) :
    (Execution.mk (.ok a) calls events queue).andThen next =
      ⟨(next a queue).outcome, calls ++ (next a queue).calls, events ++ (next a queue).events,
        (next a queue).queue⟩ := rfl

theorem error_andThen (f : Failure) (calls : List Call) (events : List Event)
    (queue : List Reply) (next : α → List Reply → Execution β) :
    (Execution.mk (.error f) calls events queue).andThen next = ⟨.error f, calls, events, queue⟩ :=
  rfl

end Execution

/-! ## Replies -/

/-- The reply that command number `i` meets. -/
def replyAt (queue : List Reply) (i : Nat) : Reply := queue[i]?.getD .default

theorem replyAt_zero (queue : List Reply) : replyAt queue 0 = queue.head?.getD .default := by
  cases queue <;> rfl

theorem replyAt_tail (queue : List Reply) (i : Nat) :
    replyAt queue.tail i = replyAt queue (i + 1) := by
  cases queue <;> rfl

namespace Reply

def EndsWell : Reply → Prop
  | .exited code _ _ => code = 0
  | .notStarted _ => False
  | .refused _ => False

instance : DecidablePred EndsWell
  | .exited code _ _ => inferInstanceAs (Decidable (code = 0))
  | .notStarted _ => .isFalse id
  | .refused _ => .isFalse id

/-- The failure that a command meets which leaves no error to tell: its exit code is too long to be
written, or it was refused. -/
def breakdown? : Reply → Option Failure
  | .exited code _ _ => if Text.IsWritable code then none else some .exitCodeTooLong
  | .notStarted _ => none
  | .refused reason => some (.refused reason)

variable {reply : Reply}

theorem breakdown?_exited_eq_none {code : Int} {stdout stderr : Option String} :
    (exited code stdout stderr).breakdown? = none ↔ Text.IsWritable code := by
  simp [breakdown?]

theorem breakdown?_exited_eq_some {code : Int} {stdout stderr : Option String} {f : Failure} :
    (exited code stdout stderr).breakdown? = some f ↔
      ¬ Text.IsWritable code ∧ f = .exitCodeTooLong := by
  simp [breakdown?, eq_comm]

theorem EndsWell.breakdown?_eq (h : reply.EndsWell) : reply.breakdown? = none := by
  cases reply with
  | exited code stdout stderr =>
    obtain rfl : code = 0 := h
    exact breakdown?_exited_eq_none.2 (by decide)
  | notStarted e => exact h.elim
  | refused reason => exact h.elim

theorem not_endsWell_of_breakdown? {f : Failure} (h : reply.breakdown? = some f) :
    ¬ reply.EndsWell :=
  fun hwell => absurd (hwell.breakdown?_eq.symm.trans h) nofun

end Reply

def HoldsNull (argv : List String) : Prop := ∃ word ∈ argv, '\u0000' ∈ word.toList

/-- The reply is one that a system gives to these words: it refuses the null character. -/
def Reply.Fits (reply : Reply) (argv : List String) : Prop :=
  reply = .refused embeddedNull ↔ HoldsNull argv

theorem Reply.Fits.breakdown?_eq {reply : Reply} {argv : List String} (h : reply.Fits argv)
    (hnull : HoldsNull argv) : reply.breakdown? = some (.refused embeddedNull) := by
  rw [h.2 hnull]
  rfl

/-! ## Results -/

namespace Runner

/-- What is left of a command that meets the reply. One that could not be started counts as
failed. -/
def result (runner : Runner) (argv : List String) : Reply → Except Failure CommandResult
  | .exited code stdout stderr => .ok ⟨code, runner.stream stdout, runner.stream stderr⟩
  | .notStarted e => .ok ⟨127, "", argv.headD "" ++ ": " ++ e.message⟩
  | .refused reason => .error (.refused reason)

def records (runner : Runner) (argv : List String) : Reply → List Event
  | .exited .. => runner.announcement argv
  | .notStarted e => runner.announcement argv ++ runner.complaint (argv.headD "") e
  | .refused _ => runner.announcement argv

/-- What a command that does not end well makes of whatever it was run for. -/
def failure (runner : Runner) (purpose : Purpose) (argv : List String) (reply : Reply) : Failure :=
  match runner.result argv reply with
  | .ok result => result.failure purpose argv
  | .error f => f

@[simp] theorem call_argv (runner : Runner) (argv : List String) :
    (runner.call argv).argv = argv := by
  cases runner <;> rfl

theorem exitCode_eq_zero_iff (runner : Runner) (argv : List String) (reply : Reply) :
    (runner.result argv reply).map (·.exitCode) = .ok 0 ↔ reply.EndsWell := by
  cases reply with
  | exited code stdout stderr => exact ⟨Except.ok.inj, congrArg Except.ok⟩
  | notStarted e =>
    have hcode : (127 : Int) ≠ 0 := by decide
    exact iff_of_false (fun h => hcode (Except.ok.inj h)) id
  | refused reason => exact iff_of_false nofun id

theorem failure_of_breakdown? (runner : Runner) (purpose : Purpose) (argv : List String)
    {reply : Reply} {f : Failure} (h : reply.breakdown? = some f) :
    runner.failure purpose argv reply = f := by
  cases reply with
  | exited code stdout stderr =>
    obtain ⟨hlong, rfl⟩ := Reply.breakdown?_exited_eq_some.1 h
    exact if_neg hlong
  | notStarted e => cases h
  | refused reason => exact Option.some.inj h

theorem exists_failure_eq (runner : Runner) (purpose : Purpose) (argv : List String)
    {reply : Reply} (h : reply.breakdown? = none) :
    ∃ result, runner.result argv reply = .ok result ∧ Text.IsWritable result.exitCode ∧
      runner.failure purpose argv reply = .install (.commandFailed purpose argv result) := by
  cases reply with
  | exited code stdout stderr =>
    have hcode := Reply.breakdown?_exited_eq_none.1 h
    exact ⟨_, rfl, hcode, if_pos hcode⟩
  | notStarted e =>
    have hcode : Text.IsWritable 127 := by decide
    exact ⟨_, rfl, hcode, if_pos hcode⟩
  | refused reason => cases h

/-! ## Running one command -/

theorem run_of_ne_nil (runner : Runner) {argv : List String} (h : argv ≠ [])
    (queue : List Reply) :
    runner.run argv queue =
      ⟨runner.result argv (replyAt queue 0), [runner.call argv],
        runner.records argv (replyAt queue 0), queue.tail⟩ := by
  obtain ⟨program, args, rfl⟩ := List.exists_cons_of_ne_nil h
  rw [replyAt_zero]
  unfold run
  cases queue.head?.getD .default with
  | exited code stdout stderr => rfl
  | notStarted e => rfl
  | refused reason => rfl

theorem require_of_ne_nil (runner : Runner) (purpose : Purpose) {argv : List String}
    (h : argv ≠ []) (queue : List Reply) :
    runner.require purpose argv queue =
      ⟨if (replyAt queue 0).EndsWell then .ok ()
        else .error (runner.failure purpose argv (replyAt queue 0)),
        [runner.call argv], runner.records argv (replyAt queue 0), queue.tail⟩ := by
  rw [require, run_of_ne_nil runner h]
  cases replyAt queue 0 with
  | exited code stdout stderr =>
    have hdone : runner.result argv (.exited code stdout stderr) = .ok _ := rfl
    rw [hdone, Execution.ok_andThen, Execution.done, List.append_nil, List.append_nil]
    congr 1
  | notStarted e =>
    have hdone : runner.result argv (.notStarted e) = .ok _ := rfl
    rw [hdone, Execution.ok_andThen, Execution.done, List.append_nil, List.append_nil]
    rfl
  | refused reason => rfl

end Runner

end NuPlugin

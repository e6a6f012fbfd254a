import NuPlugin.Proofs.Runner
import NuPlugin.Session

/-!
# What a session keeps

Planning and installing change nothing in a session but its queue, from which every command takes
one reply. A step that starts no command leaves no trace.
-/

namespace NuPlugin

/-! ## What every execution keeps -/

/-- A property of executions that their parts have and that going on keeps. The queue is the one
that an execution starts with. -/
structure Execution.Kept (runner : Runner) (P : ∀ {α : Type}, Execution α → List Reply → Prop) :
    Prop where
  done : ∀ {α : Type} (outcome : Except Failure α) (queue : List Reply),
    P (.done outcome queue) queue
  say : ∀ (event : Event) (queue : List Reply), event.speaker = .installer →
    P (.say event queue) queue
  run : ∀ (argv : List String) (queue : List Reply), P (runner.run argv queue) queue
  andThen : ∀ {α β : Type} {e : Execution α} {next : α → List Reply → Execution β}
    {queue : List Reply}, P e queue → (∀ a queue, P (next a queue) queue) →
      P (e.andThen next) queue

namespace Execution.Kept

variable {runner : Runner} {P : ∀ {α : Type}, Execution α → List Reply → Prop}
  (hP : Kept runner P) (queue : List Reply)

include hP

theorem require (purpose : Purpose) (argv : List String) :
    P (runner.require purpose argv queue) queue :=
  hP.andThen (hP.run _ _) fun _ _ => hP.done _ _

theorem carryOut (p : Plan) (host : String) : P (p.carryOut host runner queue) queue := by
  refine hP.andThen (hP.say _ _ rfl) fun _ _ => ?_
  refine hP.andThen (hP.require _ _ _) fun _ _ => ?_
  refine hP.andThen (hP.say _ _ rfl) fun _ _ => ?_
  refine hP.andThen (hP.require _ _ _) fun _ _ => ?_
  exact hP.andThen (hP.say _ _ rfl) fun _ _ => hP.done _ _

theorem install (c : Config) (files : Files) (file : PackageFile) :
    P (install c files runner file queue) queue :=
  hP.andThen (hP.done _ _) fun p _ => hP.carryOut _ p _

theorem installWith (settings : Option Config) (env : Environment) (files : Files)
    (file : PackageFile) : P (installWith settings env files runner file queue) queue := by
  refine hP.andThen (hP.done _ _) fun _ _ => ?_
  exact hP.andThen (hP.done _ _) fun c _ => hP.install _ c files file

end Execution.Kept

/-! ## Replies that are taken -/

namespace Execution

variable {α β : Type} {queue : List Reply}

/-- Every command has taken one reply from the front of the queue, as long as there was one. -/
def TakesFrom (e : Execution α) (queue : List Reply) : Prop :=
  e.queue = queue.drop e.calls.length

theorem TakesFrom.andThen {e : Execution α} {next : α → List Reply → Execution β}
    (h : e.TakesFrom queue) (hnext : ∀ a queue, (next a queue).TakesFrom queue) :
    (e.andThen next).TakesFrom queue := by
  obtain ⟨outcome, calls, events, left⟩ := e
  cases outcome with
  | error f => exact h
  | ok a =>
    have hleft : left = queue.drop calls.length := h
    rw [ok_andThen, TakesFrom, hnext a left, hleft, List.drop_drop, List.length_append]

end Execution

open Execution

theorem Runner.run_takesFrom (runner : Runner) (queue : List Reply) (argv : List String) :
    (runner.run argv queue).TakesFrom queue := by
  have htail : queue.tail = queue.drop 1 := List.drop_one.symm
  unfold run
  dsimp only
  split
  · exact htail
  · split <;> exact htail
  · exact htail

theorem takesFrom_kept (runner : Runner) : Kept runner TakesFrom where
  done _ _ := rfl
  say _ _ _ := rfl
  run _ _ := runner.run_takesFrom _ _
  andThen := TakesFrom.andThen

/-! ## Steps -/

namespace Session

inductive Attempt where
  | plan (file : PackageFile)
  | install (file : PackageFile)
  | installAlone (shared : Bool) (file : PackageFile)

def Attempt.step : Attempt → Step
  | .plan file => .plan file
  | .install file => .install file
  | .installAlone shared file => .installAlone shared file

section

variable {s : Session} {P : ∀ {α : Type}, Execution α → List Reply → Prop}

theorem step_kept_attempt (hP : Kept s.runner P) (a : Attempt) : P (s.step a.step).2 s.queue := by
  have hcarry : ∀ e : Execution Plan, P e s.queue → P (s.carry e).2 s.queue := fun e he =>
    hP.andThen he fun _ _ => hP.done _ _
  cases a with
  | plan file => exact hcarry _ (hP.done _ _)
  | install file => exact hcarry _ (hP.install _ _ _ _)
  | installAlone shared file => exact hcarry _ (hP.installWith _ _ _ _ _)

theorem step_kept (hP : Kept s.runner P) (step : Step) : ∃ queue, P (s.step step).2 queue := by
  cases step with
  | plan file => exact ⟨_, step_kept_attempt hP (.plan file)⟩
  | install file => exact ⟨_, step_kept_attempt hP (.install file)⟩
  | installAlone shared file => exact ⟨_, step_kept_attempt hP (.installAlone shared file)⟩
  | _ => exact ⟨_, hP.done _ _⟩

theorem step_runner (s : Session) (step : Step) : (s.step step).1.runner = s.runner := by
  cases step <;> rfl

/-- No step changes the runner, so all of a session has what executions keep. -/
theorem run_kept (hP : Kept s.runner P) {steps : List Step} :
    ∀ e ∈ s.run steps, ∃ queue, P e queue := by
  induction steps generalizing s with
  | nil => exact fun _ he => absurd he List.not_mem_nil
  | cons first rest ih =>
    intro e he
    rcases List.mem_cons.1 he with rfl | he
    · exact step_kept hP first
    · have hnext : Kept (s.step first).1.runner P := by rwa [s.step_runner first]
      exact ih hnext e he

end

theorem carry_calls (s : Session) (e : Execution Plan) : (s.carry e).2.calls = e.calls := by
  obtain ⟨outcome, calls, events, queue⟩ := e
  cases outcome with
  | error f => rfl
  | ok p => exact List.append_nil calls

theorem carry_fst (s : Session) (e : Execution Plan) :
    (s.carry e).1 = { s with queue := (s.carry e).2.queue } := by
  obtain ⟨outcome, calls, events, queue⟩ := e
  cases outcome <;> rfl

theorem step_attempt (s : Session) (a : Attempt) :
    (s.step a.step).1 = { s with queue := s.queue.drop (s.step a.step).2.calls.length } ∧
      (s.step a.step).2.TakesFrom s.queue := by
  have htakes : (s.step a.step).2.TakesFrom s.queue := step_kept_attempt (takesFrom_kept s.runner) a
  have hnext : (s.step a.step).1 = { s with queue := (s.step a.step).2.queue } := by
    cases a <;> exact s.carry_fst _
  refine ⟨?_, htakes⟩
  rw [hnext, htakes]

theorem step_plan_calls (s : Session) (file : PackageFile) :
    (s.step (.plan file)).2.calls = [] := by
  rw [step, carry_calls]
  rfl

theorem step_attempt_of_calls_eq_nil {s : Session} {a : Attempt}
    (h : (s.step a.step).2.calls = []) : (s.step a.step).1 = s := by
  rw [(s.step_attempt a).1, h]
  rfl

/-! ## Sessions -/

def after (s : Session) (steps : List Step) : Session :=
  steps.foldl (fun s step => (s.step step).1) s

theorem run_append (s : Session) (steps later : List Step) :
    s.run (steps ++ later) = s.run steps ++ (s.after steps).run later := by
  induction steps generalizing s with
  | nil => rfl
  | cons first rest ih => exact congrArg (_ :: ·) (ih _)

theorem length_run (s : Session) (steps : List Step) : (s.run steps).length = steps.length := by
  induction steps generalizing s with
  | nil => rfl
  | cons first rest ih => exact congrArg (· + 1) (ih _)

/-- Entries of a record are left out whose steps planned or installed and started no command. -/
inductive LeavesOut : List (Step × Execution Result) → List (Step × Execution Result) → Prop
  | nil : LeavesOut [] []
  | keep {record kept : List (Step × Execution Result)} (entry : Step × Execution Result) :
    LeavesOut record kept → LeavesOut (entry :: record) (entry :: kept)
  | drop {record kept : List (Step × Execution Result)} (a : Attempt) {answer : Execution Result}
      (hidle : answer.calls = []) :
    LeavesOut record kept → LeavesOut ((a.step, answer) :: record) kept

theorem run_of_leavesOut {s : Session} {steps : List Step}
    {kept : List (Step × Execution Result)} (h : LeavesOut (steps.zip (s.run steps)) kept) :
    s.run (kept.map Prod.fst) = kept.map Prod.snd := by
  induction steps generalizing s kept with
  | nil =>
    cases h
    rfl
  | cons first rest ih =>
    generalize hrecord : (first :: rest).zip (s.run (first :: rest)) = record at h
    cases h with
    | nil => cases hrecord
    | keep entry h =>
      obtain ⟨rfl, rfl⟩ := List.cons.inj hrecord
      exact congrArg (_ :: ·) (ih h)
    | drop a hidle h =>
      -- The step that is left out leads back to `s`, so the rest of the record starts there.
      obtain ⟨hentry, rfl⟩ := List.cons.inj hrecord
      obtain ⟨rfl, rfl⟩ := Prod.mk.inj hentry
      have hleft : (s.step a.step).1 = s := step_attempt_of_calls_eq_nil hidle
      change LeavesOut (rest.zip ((s.step a.step).1.run rest)) kept at h
      rw [hleft] at h
      exact ih h

/-- Planning and installing, wherever in a session, change nothing but the queue, from which each
command takes one reply. Of those steps any that start no command may be left out. -/
theorem run_keeps (s : Session) (earlier later : List Step) (a : Attempt) :
    let reached := s.after earlier
    let next := (reached.step a.step).1
    let answer := (reached.step a.step).2
    s.run (earlier ++ a.step :: later) = s.run earlier ++ answer :: next.run later ∧
      next = { reached with queue := reached.queue.drop answer.calls.length } ∧
      answer.queue = next.queue ∧
      (∀ file, a = .plan file → answer.calls = []) ∧
      (answer.calls = [] → s.run (earlier ++ later) =
        (s.run (earlier ++ a.step :: later)).eraseIdx earlier.length) ∧
      ∀ (steps : List Step) (kept : List (Step × Execution Result)),
        LeavesOut (steps.zip (s.run steps)) kept →
          s.run (kept.map Prod.fst) = kept.map Prod.snd := by
  intro reached next answer
  have hrun : s.run (earlier ++ a.step :: later) = s.run earlier ++ answer :: next.run later :=
    s.run_append earlier _
  obtain ⟨hnext, hqueue⟩ := reached.step_attempt a
  refine ⟨hrun, hnext, ?_, ?_, ?_, fun _ _ => run_of_leavesOut⟩
  · exact hqueue.trans (congrArg Session.queue hnext).symm
  · rintro file rfl
    exact reached.step_plan_calls file
  · intro hidle
    have hleft : next = reached := step_attempt_of_calls_eq_nil hidle
    rw [hrun, hleft, s.run_append, ← s.length_run earlier,
      List.eraseIdx_append_of_length_le (Nat.le_refl _), Nat.sub_self, List.eraseIdx_cons_zero]

def emptySession : Session where
  config := { home := .ofString "/h" }
  env := fun _ => none
  files := fun _ => none
  queue := [.exited 1 none none]
  runner := .recording

def earlySteps : List Step :=
  let file := PackageFile.text "r/p"
  [.plan file, .install file, .write "r/Cargo.toml" (.ofText "[package]\nname = \"n\"\n"),
    .install file]

/-- The reply waits for the first installation that starts a command. Without the steps before the
file was written, the session is the same. -/
theorem run_keeps_emptySession :
    (emptySession.run earlySteps).map (·.calls.length) = [0, 0, 0, 1] ∧
      emptySession.run (earlySteps.eraseIdx 1) = (emptySession.run earlySteps).eraseIdx 1 ∧
      ∃ kept, LeavesOut (earlySteps.zip (emptySession.run earlySteps)) kept ∧ kept.length = 2 ∧
        emptySession.run (kept.map Prod.fst) = kept.map Prod.snd := by
  have hplan : (emptySession.step (.plan (.text "r/p"))).2.calls = [] := by decide +kernel
  have hidle : (emptySession.step (.install (.text "r/p"))).2.calls = [] := by decide +kernel
  have hcalls : (emptySession.run earlySteps).map (·.calls.length) = [0, 0, 0, 1] := by
    decide +kernel
  obtain ⟨-, -, -, -, herase, hkept⟩ :=
    emptySession.run_keeps [.plan (.text "r/p")] (earlySteps.drop 2) (.install (.text "r/p"))
  have hleft : LeavesOut (earlySteps.zip (emptySession.run earlySteps)) _ :=
    .drop (.plan (.text "r/p")) hplan
      (.drop (.install (.text "r/p")) hidle (.keep _ (.keep _ .nil)))
  exact ⟨hcalls, herase hidle, _, hleft, rfl, hkept _ _ hleft⟩

end Session

end NuPlugin

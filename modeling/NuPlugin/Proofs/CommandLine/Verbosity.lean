import NuPlugin.Proofs.CommandLine.Deed
import NuPlugin.Proofs.CommandLine.Flag
import Mathlib.Data.List.Forall2

/-!
# Quiet and verbose runs

The flags for more and for less output change what a run tells of its deed, not the deed. What the
commands write reaches the user's error output and nothing else.
-/

namespace NuPlugin

/-! ## What commands write -/

/-- The replies differ at most in what the command wrote. -/
def Reply.SameEnd : Reply → Reply → Prop
  | .exited code _ _, .exited code' _ _ => code = code'
  | .notStarted e, .notStarted e' => e = e'
  | .refused reason, .refused reason' => reason = reason'
  | _, _ => False

theorem Reply.SameEnd.same {reply reply' : Reply} (h : reply.SameEnd reply') :
    (reply.EndsWell ↔ reply'.EndsWell) ∧ reply'.breakdown? = reply.breakdown? := by
  cases reply <;> cases reply' <;> first | exact h.elim | exact h ▸ ⟨Iff.rfl, rfl⟩

theorem sameEnd_replyAt {queue queue' : List Reply}
    (h : List.Forall₂ Reply.SameEnd queue queue') (i : Nat) :
    (replyAt queue i).SameEnd (replyAt queue' i) := by
  induction h generalizing i with
  | nil => exact rfl
  | cons hfirst hrest ih =>
    cases i with
    | zero => exact hfirst
    | succ i => exact ih i

namespace CommandLine

structure World.SameEnds (w w' : World) : Prop where
  env : w'.env = w.env
  files : w'.files = w.files
  queue : List.Forall₂ Reply.SameEnd w.queue w'.queue

variable {w w' : World} {r : Request} {d : Deed}

theorem World.SameEnds.endsWell_iff (h : w.SameEnds w') (i : Nat) :
    (replyAt w.queue i).EndsWell ↔ (replyAt w'.queue i).EndsWell :=
  (sameEnd_replyAt h.queue i).same.1

theorem World.SameEnds.breakdown?_eq (h : w.SameEnds w') (i : Nat) :
    (replyAt w'.queue i).breakdown? = (replyAt w.queue i).breakdown? :=
  (sameEnd_replyAt h.queue i).same.2

theorem World.SameEnds.planned_eq (h : w.SameEnds w') : r.planned w' = r.planned w := by
  rw [Request.planned, Request.planned, h.env, h.files]

theorem Request.Does.of_sameEnds (hd : r.Does w d) (h : w.SameEnds w') :
    ∃ d', r.Does w' d' ∧ d'.exitCode = d.exitCode ∧ d'.stdout = d.stdout ∧ d'.argvs = d.argvs := by
  have hbuild' := h.endsWell_iff 0
  have hregister' := h.endsWell_iff 1
  cases hd with
  | refused hplan => exact ⟨_, .refused (h.planned_eq.trans hplan), rfl, rfl, rfl⟩
  | shown hplan hdry => exact ⟨_, .shown (h.planned_eq.trans hplan) hdry, rfl, rfl, rfl⟩
  | buildFailed hplan hdry hbuild htold =>
    exact ⟨_, .buildFailed (h.planned_eq.trans hplan) hdry (mt hbuild'.2 hbuild)
      ((h.breakdown?_eq 0).trans htold), rfl, rfl, rfl⟩
  | registrationFailed hplan hdry hbuild hregister htold =>
    exact ⟨_, .registrationFailed (h.planned_eq.trans hplan) hdry (hbuild'.1 hbuild)
      (mt hregister'.2 hregister) ((h.breakdown?_eq 1).trans htold), rfl, rfl, rfl⟩
  | installed hplan hdry hc hbuild hregister =>
    exact ⟨_, .installed (h.planned_eq.trans hplan) hdry (h.env ▸ hc) (hbuild'.1 hbuild)
      (hregister'.1 hregister), rfl, rfl, rfl⟩

/-! ## The log -/

def linesOf (events : List Event) : String := String.join (events.map fun e => e.message ++ "\n")

theorem shownEvents_debug (events : List Event) : shownEvents .debug events = linesOf events := by
  simp only [shownEvents, linesOf, Level.rank, Nat.zero_le, decide_true, List.filter_true]

theorem shownEvents_info_eq_filter (events : List Event) :
    shownEvents .info events = linesOf (events.filter fun e => e.level ≠ .debug) := by
  have hlevel : ∀ e : Event,
      decide (Level.info.rank ≤ e.level.rank) = decide (e.level ≠ .debug) := by
    intro e
    cases e.level <;> rfl
  simp only [shownEvents, linesOf, hlevel]

theorem shownEvents_warning (events : List Event) :
    shownEvents .warning events =
      linesOf (events.filter fun e => e.level ≠ .debug ∧ e.level ≠ .info) := by
  have hlevel : ∀ e : Event, decide (Level.warning.rank ≤ e.level.rank) =
      decide (e.level ≠ .debug ∧ e.level ≠ .info) := by
    intro e
    cases e.level <;> rfl
  simp only [shownEvents, linesOf, hlevel]

/-! ## Captured output -/

/-- What was captured is told of a command that failed, behind the complaint about it, and of no
other. -/
def Deed.TellsCaptured (d : Deed) (queue : List Reply) : Prop :=
  (∀ argv result, Fails queue d.argvs argv result →
    (∃ purpose, d.complaint =
      "Error: " ++ (InstallError.commandFailed purpose argv result).message ++ "\n") ∧
      d.captured = result.shown) ∧
    ((∀ argv result, ¬ Fails queue d.argvs argv result) → d.captured = "")

theorem Deed.tellsCaptured_of_endsWell {d : Deed} {queue : List Reply}
    (h : ∀ i < d.argvs.length, (replyAt queue i).EndsWell) (hcaptured : d.captured = "") :
    d.TellsCaptured queue :=
  ⟨fun argv result hfails => absurd hfails (not_fails_of_endsWell h argv result),
    fun _ => hcaptured⟩

theorem Deed.tellsCaptured_broken (purpose : Purpose) {argvs : List (List String)}
    (argv : List String) (log : List Event) {queue : List Reply}
    (hfront : ∀ i < argvs.length, (replyAt queue i).EndsWell)
    (hlast : ¬ (replyAt queue argvs.length).EndsWell)
    (htold : (replyAt queue argvs.length).breakdown? = none) :
    (broken purpose argvs argv log (replyAt queue argvs.length)).TellsCaptured queue := by
  constructor
  · intro failed result hfails
    obtain ⟨rfl, code, stdout, stderr, hreply, rfl⟩ := hfails.last hfront
    rw [hreply] at htold
    have hcode := Reply.breakdown?_exited_eq_none.1 htold
    rw [broken, hreply]
    refine ⟨⟨purpose, ?_⟩, rfl⟩
    simp only [Runner.failure, Runner.result, Runner.stream, CommandResult.failure, if_pos hcode,
      complaintOf]
    rw [errorText_eq_shown, CommandResult.shown_nothing, String.append_empty]
    rfl
  · intro hnone
    refine Reply.captured_eq_empty hlast fun code stdout stderr hreply => ?_
    by_contra hcode
    exact hnone _ _ (.exited List.getElem?_concat_length hreply hcode)

namespace Request

theorem Does.congr (hd : r.Does w d) (r' : Request) (hplan : r'.planned w = r.planned w)
    (hdry : r'.dryRun = r.dryRun) (hconfig : r'.config w.env = r.config w.env) :
    r'.Does w d := by
  cases hd with
  | refused h => exact .refused (hplan.trans h)
  | shown h h' => exact .shown (hplan.trans h) (hdry.trans h')
  | buildFailed h h' hbuild htold =>
    exact .buildFailed (hplan.trans h) (hdry.trans h') hbuild htold
  | registrationFailed h h' hbuild hregister htold =>
    exact .registrationFailed (hplan.trans h) (hdry.trans h') hbuild hregister htold
  | installed h h' hc hbuild hregister =>
    exact .installed (hplan.trans h) (hdry.trans h') (hconfig.trans hc) hbuild hregister

theorem Does.tellsCaptured (hd : r.Does w d) : d.TellsCaptured w.queue := by
  cases hd with
  | refused hplan => exact Deed.tellsCaptured_of_endsWell nofun rfl
  | shown hplan hdry => exact Deed.tellsCaptured_of_endsWell nofun rfl
  | buildFailed hplan hdry hbuild htold =>
    exact Deed.tellsCaptured_broken _ _ _ nofun hbuild htold
  | registrationFailed hplan hdry hbuild hregister htold =>
    refine Deed.tellsCaptured_broken _ _ _ (fun i hi => ?_) hregister htold
    obtain rfl : i = 0 := Nat.lt_one_iff.1 hi
    exact hbuild
  | installed hplan hdry hc hbuild hregister =>
    refine Deed.tellsCaptured_of_endsWell (fun i hi => ?_) rfl
    obtain rfl | rfl : i = 0 ∨ i = 1 := by
      have hi' : i < 2 := hi
      omega
    · exact hbuild
    · exact hregister

end Request

/-! ## Three runs -/

theorem Deed.answer_argvs (d : Deed) (r : Request) :
    (d.answer r).calls.map Call.argv = d.argvs := by
  simp [answer, Function.comp_def]

/-- The answers tell of one deed: of its log, of a complaint behind the log, and of what was
captured behind the complaint. -/
structure SameDeed (queue : List Reply) (log : List Event) (complaint captured : String)
    (plain verbose quiet : Answer) : Prop where
  exitCode : verbose.exitCode = plain.exitCode ∧ quiet.exitCode = plain.exitCode
  stdout : verbose.stdout = plain.stdout ∧ quiet.stdout = plain.stdout
  argvs : verbose.calls.map Call.argv = plain.calls.map Call.argv ∧
    quiet.calls.map Call.argv = plain.calls.map Call.argv
  streaming : ∀ call ∈ plain.calls ++ verbose.calls, call.capture = some false
  capturing : ∀ call ∈ quiet.calls, call.capture = some true
  announced : log.filter (fun e => e.level = .debug) =
    plain.calls.map fun call => .running call.argv
  verbose_stderr : verbose.stderr = linesOf log ++ complaint
  plain_stderr : plain.stderr = linesOf (log.filter fun e => e.level ≠ .debug) ++ complaint
  quiet_stderr : quiet.stderr =
    linesOf (log.filter fun e => e.level ≠ .debug ∧ e.level ≠ .info) ++ complaint ++ captured
  captured_of_fails : ∀ argv result, Fails queue (plain.calls.map Call.argv) argv result →
    (∃ purpose, complaint =
      "Error: " ++ (InstallError.commandFailed purpose argv result).message ++ "\n") ∧
      captured =
        if Text.isAllBlank result.stdout = true ∧ Text.isAllBlank result.stderr = true then ""
        else result.output ++ "\n"
  captured_eq_empty : (∀ argv result, ¬ Fails queue (plain.calls.map Call.argv) argv result) →
    captured = ""

theorem Request.Does.sameDeed (hquiet : r.quiet = false) (hverbose : r.verbose = false)
    (hd : r.Does w d) :
    SameDeed w.queue d.log d.complaint d.captured (d.answer r)
      (d.answer { r with verbose := true }) (d.answer { r with quiet := true }) := by
  obtain ⟨hfails, hnone⟩ := hd.tellsCaptured
  have hargvs := fun r => d.answer_argvs r
  constructor
  case exitCode => exact ⟨rfl, rfl⟩
  case stdout => exact ⟨rfl, rfl⟩
  case argvs => simp only [hargvs, and_self]
  case streaming => simp [Deed.answer, Runner.call, hquiet]
  case capturing => simp [Deed.answer, Runner.call]
  case announced => simp [hd.log_announces, Deed.answer]
  case verbose_stderr => simp [Deed.answer, threshold, hquiet, shownEvents_debug]
  case plain_stderr =>
    simp [Deed.answer, threshold, hquiet, hverbose, shownEvents_info_eq_filter]
  case quiet_stderr =>
    simp [Deed.answer, threshold, hverbose, shownEvents_warning, String.append_assoc]
  case captured_of_fails =>
    intro argv result h
    rw [hargvs] at h
    rw [← CommandResult.shown_eq]
    exact hfails argv result h
  case captured_eq_empty =>
    rw [hargvs]
    exact hnone

theorem exists_answers_of_sameEnds {arguments : List String} {r : Request}
    (hr : Request.ofArguments arguments = .ok r) (hcargo : r.cargo ≠ some .nothing)
    (hhost : r.host ≠ some .nothing) (hd : r.Does w d) (h : w.SameEnds w') :
    ∃ a a', run w arguments = .ok a ∧ run w' arguments = .ok a' ∧
      a'.exitCode = a.exitCode ∧ a'.stdout = a.stdout ∧ a'.calls = a.calls := by
  obtain ⟨d', hd', hexit, hout, hargvs⟩ := hd.of_sameEnds h
  refine ⟨_, _, run_eq_deed hr hcargo hhost hd, run_eq_deed hr hcargo hhost hd', hexit, hout, ?_⟩
  simp only [Deed.answer, hargvs]

/-- Asked for more or for less output, a run does what it does without being asked. It only tells
more or less of it, and what its commands write decides nothing. -/
theorem verbosity_keeps_deed (w : World) {arguments : List String} {r : Request}
    (hr : Request.ofArguments arguments = .ok r) (hquiet : r.quiet = false)
    (hverbose : r.verbose = false) (hvalues : Request.GivesValues arguments)
    (hvalue : ∀ f, run w arguments = .error f → ¬ f.IsOfValue) :
    ∃ plain verbose quiet : Answer, ∃ complaint captured : String,
      run w arguments = .ok plain ∧ run w ("-v" :: arguments) = .ok verbose ∧
      run w ("-q" :: arguments) = .ok quiet ∧
      SameDeed w.queue (r.execute w).events complaint captured plain verbose quiet ∧
      ∀ w', w.SameEnds w' → ∀ front ∈ [[], ["-v"], ["-q"]], ∃ a a',
        run w (front ++ arguments) = .ok a ∧ run w' (front ++ arguments) = .ok a' ∧
        a'.exitCode = a.exitCode ∧ a'.stdout = a.stdout ∧ a'.calls = a.calls := by
  obtain ⟨-, hcargo, hhost⟩ := Request.values_of_givesValues hr hvalues
  obtain ⟨d, hd⟩ := exists_does_of_run hr hvalue
  have hrv := Request.ofArguments_verbose hr hquiet
  have hrq := Request.ofArguments_quiet hr hverbose
  have hdv := hd.congr { r with verbose := true } rfl rfl rfl
  have hdq := hd.congr { r with quiet := true } rfl rfl rfl
  refine ⟨_, _, _, d.complaint, d.captured, run_eq_deed hr hcargo hhost hd,
    run_eq_deed hrv hcargo hhost hdv, run_eq_deed hrq hcargo hhost hdq, ?_, ?_⟩
  · rw [(hd.answer_eq hcargo hhost).2]
    exact hd.sameDeed hquiet hverbose
  · intro w' h front hfront
    simp only [List.mem_cons, List.not_mem_nil, or_false] at hfront
    rcases hfront with rfl | rfl | rfl
    · exact exists_answers_of_sameEnds hr hcargo hhost hd h
    · exact exists_answers_of_sameEnds hrv hcargo hhost hdv h
    · exact exists_answers_of_sameEnds hrq hcargo hhost hdq h

def talkingWorld : World where
  env _ := none
  files path := if path = "a/Cargo.toml" then some (.ofText "package.name = 'n'\n") else none
  queue := [.exited (-9) (some "out\n\n") (some "\t")]

theorem verbosity_keeps_deed_talkingWorld :
    ∃ plain verbose quiet : Answer, ∃ complaint : String,
      run talkingWorld ["--home=/h", "a/p"] = .ok plain ∧
      run talkingWorld ["-v", "--home=/h", "a/p"] = .ok verbose ∧
      run talkingWorld ["-q", "--home=/h", "a/p"] = .ok quiet ∧
      plain.stderr = "Building 'n' from a into /h/plugins\n" ++ complaint ∧
      quiet.stderr = complaint ++ "out\n" ∧ quiet.exitCode = 1 := by
  have hr : Request.ofArguments ["--home=/h", "a/p"] =
      .ok ⟨"a/p", some (.value "/h"), none, none, false, false, false⟩ := by decide +kernel
  have hclass : Argument.classifyAll ["--home=/h", "a/p"] =
      .ok [.option .home (some "/h"), .positional "a/p"] := by decide +kernel
  have hvalues : Request.GivesValues ["--home=/h", "a/p"] :=
    Request.givesValues_of_classifyAll hclass (by simp)
  have hrun : (run talkingWorld ["--home=/h", "a/p"]).map (fun a => (a.exitCode, a.calls)) =
      .ok (1, [⟨["cargo", "install", "--path", "a", "--root", "/h/plugins"], some false⟩]) := by
    decide +kernel
  obtain ⟨answer, hanswer, hends⟩ := map_eq_ok.1 hrun
  obtain ⟨hexit, hcalls⟩ := Prod.mk.inj hends
  obtain ⟨plain, verbose, quiet, complaint, captured, hplain, hverbose, hquiet, hsame, -⟩ :=
    verbosity_keeps_deed talkingWorld hr rfl rfl hvalues (by rw [hanswer]; exact nofun)
  obtain rfl := Except.ok.inj (hanswer.symm.trans hplain)
  have hfails : Fails talkingWorld.queue (answer.calls.map Call.argv)
      ["cargo", "install", "--path", "a", "--root", "/h/plugins"] ⟨-9, "out\n\n", "\t"⟩ := by
    have hreply : replyAt talkingWorld.queue 0 = .exited (-9) (some "out\n\n") (some "\t") := rfl
    rw [hcalls]
    exact Fails.exited rfl hreply (by decide)
  have hcaptured : captured = "out\n" :=
    (hsame.captured_of_fails _ _ hfails).2.trans (by decide +kernel)
  have hplainLog : linesOf ((Request.execute
      ⟨"a/p", some (.value "/h"), none, none, false, false, false⟩ talkingWorld).events.filter
        fun e => e.level ≠ .debug) = "Building 'n' from a into /h/plugins\n" := by
    decide +kernel
  have hquietLog : linesOf ((Request.execute
      ⟨"a/p", some (.value "/h"), none, none, false, false, false⟩ talkingWorld).events.filter
        fun e => e.level ≠ .debug ∧ e.level ≠ .info) = "" := by
    decide +kernel
  refine ⟨answer, verbose, quiet, complaint, hplain, hverbose, hquiet, ?_, ?_, ?_⟩
  · rw [hsame.plain_stderr, hplainLog]
  · rw [hsame.quiet_stderr, hquietLog, hcaptured, String.empty_append]
  · rw [hsame.exitCode.2, hexit]

end CommandLine

end NuPlugin

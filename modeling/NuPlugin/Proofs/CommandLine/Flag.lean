import NuPlugin.Proofs.CommandLine.Front

/-!
# Flags in front

A flag that could stand behind all other arguments may as well stand in front of them: what an
argument does is the same before and after a flag, and no argument takes a flag back.
-/

namespace NuPlugin.CommandLine

namespace Reading

/-! ## The effect of a flag -/

/-- The flag ends nothing, and nothing read so far excludes it. -/
def Allows (r : Reading) : OptionName → Prop
  | .help | .version => False
  | .quiet => r.verbose = false
  | .verbose => r.quiet = false
  | _ => True

def dry (r : Reading) : Reading := { r with dryRun := true }

def flagged (r : Reading) : OptionName → Reading
  | .dryRun => r.dry
  | .quiet => { r with quiet := true }
  | .verbose => { r with verbose := true }
  | _ => r

theorem flag_eq_ok_iff {r r' : Reading} {o : OptionName} :
    r.flag o = .ok r' ↔ r.Allows o ∧ r.flagged o = r' := by
  cases o with
  | quiet => cases h : r.verbose <;> simp [flag, Allows, flagged, h]
  | verbose => cases h : r.quiet <;> simp [flag, Allows, flagged, h]
  | help | version => simp [flag, Allows]
  | _ => simp [flag, Allows, flagged, dry]

theorem flag_packageFile {r r' : Reading} {o : OptionName} (h : r.flag o = .ok r') :
    r'.packageFile = r.packageFile := by
  obtain ⟨-, rfl⟩ := flag_eq_ok_iff.1 h
  cases o <;> rfl

/-- A flag that may stand behind the arguments may stand in front of them, to the same effect. -/
theorem advances_flagged (o : OptionName) : Advances (·.flagged o) (·.Allows o) where
  packageFile r := by cases o <;> rfl
  refuse r s h := by cases o <;> exact ⟨h, rfl⟩
  name r s h := by cases o <;> exact ⟨h, rfl⟩
  give r valued given h := by cases o <;> cases valued <;> exact ⟨h, rfl⟩
  flag r o' r' hflag h := by
    obtain ⟨hallows, rfl⟩ := flag_eq_ok_iff.1 hflag
    rw [flag_eq_ok_iff]
    cases o <;> cases o' <;> simp_all [Allows, flagged, dry]

end Reading

namespace Request

theorem finish_eq_ok_iff {reading : Reading} {r : Request} :
    reading.finish = .ok r ↔
      reading.packageFile = some r.packageFile ∧ reading.unrecognized = [] ∧
        r = ⟨r.packageFile, reading.home, reading.cargo, reading.host, reading.dryRun,
          reading.quiet, reading.verbose⟩ := by
  refine ⟨finish_eq_ok, ?_⟩
  rintro ⟨hfile, hall, hr⟩
  rw [Reading.finish, hfile]
  dsimp only
  rw [if_pos hall, ← hr]

theorem ofArguments_flag {arguments : List String} {r : Request} (s : String) (o : OptionName)
    (hs : s ≠ "--") (hclass : Argument.classify s = .ok (.option o none))
    (ho : o.takesValue = false) (h : ofArguments arguments = .ok r) :
    ∃ reading : Reading, reading.finish = .ok r ∧
      (reading.Allows o → ofArguments (s :: arguments) = (reading.flagged o).finish) := by
  refine ofArguments_front (Reading.advances_flagged o)
    (Argument.classifyAll_cons hs hclass arguments) (fun rest hallows => ?_) h
  rw [Reading.readAll_flag_cons _ ho, Reading.flag_eq_ok_iff.2 ⟨hallows, rfl⟩, ok_bind]

def dry (r : Request) : Request := { r with dryRun := true }

section

variable {arguments : List String} {r : Request} (h : ofArguments arguments = .ok r)

include h

theorem ofArguments_dryRun : ofArguments ("--dry-run" :: arguments) = .ok r.dry := by
  obtain ⟨reading, hfinish, hflag⟩ := ofArguments_flag "--dry-run" .dryRun (by decide)
    (Argument.classify_long .dryRun) rfl h
  obtain ⟨hfile, hall, hr⟩ := finish_eq_ok_iff.1 hfinish
  rw [hflag trivial, finish_eq_ok_iff]
  exact ⟨hfile, hall, by rw [hr]; rfl⟩

theorem ofArguments_quiet (hverbose : r.verbose = false) :
    ofArguments ("-q" :: arguments) = .ok { r with quiet := true } := by
  obtain ⟨reading, hfinish, hflag⟩ := ofArguments_flag "-q" .quiet (by decide) (by decide +kernel)
    rfl h
  obtain ⟨hfile, hall, hr⟩ := finish_eq_ok_iff.1 hfinish
  rw [hr] at hverbose
  rw [hflag hverbose, finish_eq_ok_iff]
  exact ⟨hfile, hall, by rw [hr]; rfl⟩

theorem ofArguments_verbose (hquiet : r.quiet = false) :
    ofArguments ("-v" :: arguments) = .ok { r with verbose := true } := by
  obtain ⟨reading, hfinish, hflag⟩ := ofArguments_flag "-v" .verbose (by decide) (by decide +kernel)
    rfl h
  obtain ⟨hfile, hall, hr⟩ := finish_eq_ok_iff.1 hfinish
  rw [hr] at hquiet
  rw [hflag hquiet, finish_eq_ok_iff]
  exact ⟨hfile, hall, by rw [hr]; rfl⟩

end

end Request

end NuPlugin.CommandLine

import NuPlugin.Proofs.CommandLine.Flag
import Mathlib.Data.List.Induction

/-!
# Groups of options

A command line of options with their values, of flags, and of one package file among them. What it
asks for is told by the last value of each option and by the flags that occur. Order and spelling
have no part in it.
-/

namespace NuPlugin.CommandLine

/-! ## Wishes -/

inductive Valued where
  | home
  | cargo
  | host
  deriving DecidableEq

def Valued.name : Valued → OptionName
  | .home => .home
  | .cargo => .cargo
  | .host => .host

inductive Flag where
  | dryRun
  | quiet
  | verbose
  deriving DecidableEq

def Flag.name : Flag → OptionName
  | .dryRun => .dryRun
  | .quiet => .quiet
  | .verbose => .verbose

def Flag.spellings : Flag → List String
  | .dryRun => ["--dry-run"]
  | .quiet => ["-q", "--quiet"]
  | .verbose => ["-v", "--verbose"]

inductive Wish where
  | give (o : Valued) (value : String)
  | set (f : Flag)
  deriving DecidableEq

namespace Wish

def effect (r : Reading) : Wish → Except Stop Reading
  | .give o value => .ok (r.give o.name (.value value))
  | .set f => r.flag f.name

def valueFor? (o : Valued) : Wish → Option String
  | .give o' value => if o' = o then some value else none
  | .set _ => none

end Wish

def valuesFor (o : Valued) (wishes : List Wish) : List String := wishes.filterMap (Wish.valueFor? o)

def Clash (wishes : List Wish) : Prop := .set .quiet ∈ wishes ∧ .set .verbose ∈ wishes

/-- The lists hold the same flags, and the same last value for each option. -/
structure SameWishes (wishes wishes' : List Wish) : Prop where
  last : ∀ o, (valuesFor o wishes').getLast? = (valuesFor o wishes).getLast?
  flag : ∀ f, .set f ∈ wishes' ↔ .set f ∈ wishes

/-! ## Groups -/

/-- An option as it is written: with its value in the same argument or in the next one, or as a flag
in one of its spellings. A value does not begin with a dash. -/
inductive Group where
  | joined (o : Valued) (value : String) (h : value.toList.head? ≠ some '-')
  | apart (o : Valued) (value : String) (h : value.toList.head? ≠ some '-')
  | flag (f : Flag) (spelling : String) (h : spelling ∈ f.spellings)

namespace Group

def arguments : Group → List String
  | .joined o value _ => [o.name.long ++ "=" ++ value]
  | .apart o value _ => [o.name.long, value]
  | .flag _ spelling _ => [spelling]

def wish : Group → Wish
  | .joined o value _ => .give o value
  | .apart o value _ => .give o value
  | .flag f _ _ => .set f

def classified : Group → List Argument
  | .joined o value _ => [.option o.name (some value)]
  | .apart o value _ => [.option o.name none, .positional value]
  | .flag f _ _ => [.option f.name none]

end Group

def line (front : List Group) (packageFile : String) (back : List Group) : List String :=
  front.flatMap Group.arguments ++ packageFile :: back.flatMap Group.arguments

variable {o : Valued} {f : Flag} {g : Group} {wishes wishes' : List Wish} {r : Reading}
  {P : String}

/-! ## Arguments -/

theorem Valued.takesValue_name (o : Valued) : o.name.takesValue = true := by cases o <;> rfl

theorem Flag.takesValue_name (f : Flag) : f.name.takesValue = false := by cases f <;> rfl

theorem Flag.classify_spelling {spelling : String} (h : spelling ∈ f.spellings) :
    spelling ≠ "--" ∧ Argument.classify spelling = .ok (.option f.name none) := by
  have hall : ∀ f : Flag, ∀ s ∈ f.spellings,
      s ≠ "--" ∧ Argument.classify s = .ok (.option f.name none) := by
    intro f
    cases f <;> decide +kernel
  exact hall f spelling h

theorem OptionName.long_ne_separator (o : OptionName) : o.long ≠ "--" := by
  cases o <;> decide

theorem classifyAll_group (g : Group) (rest : List String) :
    Argument.classifyAll (g.arguments ++ rest) =
      (Argument.classifyAll rest).map (g.classified ++ ·) := by
  cases g with
  | joined o value h => exact Argument.classifyAll_valued o.name value rest
  | apart o value h =>
    rw [Group.arguments, List.cons_append, List.singleton_append,
      Argument.classifyAll_cons o.name.long_ne_separator (Argument.classify_long o.name),
      Argument.classifyAll_of_head_ne h]
    cases Argument.classifyAll rest <;> rfl
  | flag f spelling h =>
    obtain ⟨hne, hclass⟩ := Flag.classify_spelling h
    exact Argument.classifyAll_cons hne hclass rest

theorem classifyAll_groups (groups : List Group) (rest : List String) :
    Argument.classifyAll (groups.flatMap Group.arguments ++ rest) =
      (Argument.classifyAll rest).map (groups.flatMap Group.classified ++ ·) := by
  induction groups with
  | nil => cases h : Argument.classifyAll rest <;> simp [h]
  | cons g groups ih =>
    rw [List.flatMap_cons, List.append_assoc, classifyAll_group, ih]
    cases Argument.classifyAll rest <;> simp

theorem classifyAll_line (front : List Group) (hP : P.toList.head? ≠ some '-')
    (back : List Group) :
    Argument.classifyAll (line front P back) =
      .ok (front.flatMap Group.classified ++
        .positional P :: back.flatMap Group.classified) := by
  have hback : Argument.classifyAll (back.flatMap Group.arguments) =
      .ok (back.flatMap Group.classified) := by
    have h := classifyAll_groups back []
    rwa [List.append_nil, Argument.classifyAll, map_ok, List.append_nil] at h
  rw [line, classifyAll_groups, Argument.classifyAll_of_head_ne hP, hback]
  rfl

/-! ## Readings -/

theorem readAll_group (r : Reading) (g : Group) (rest : List Argument) :
    r.readAll (g.classified ++ rest) = g.wish.effect r >>= (·.readAll rest) := by
  cases g with
  | joined o value h =>
    have hvalue : value ≠ "--" := by
      rintro rfl
      exact h rfl
    rw [Group.classified, List.singleton_append, Reading.readAll, if_pos o.takesValue_name,
      Given.ofExplicit, if_neg hvalue]
    rfl
  | apart o value h =>
    rw [Group.classified, List.cons_append, List.singleton_append, Reading.readAll,
      if_pos o.takesValue_name]
    rfl
  | flag f spelling h =>
    exact r.readAll_flag_cons f.takesValue_name rest

theorem readAll_groups (r : Reading) (groups : List Group) (rest : List Argument) :
    r.readAll (groups.flatMap Group.classified ++ rest) =
      (groups.map Group.wish).foldlM Wish.effect r >>= (·.readAll rest) := by
  induction groups generalizing r with
  | nil => rfl
  | cons g groups ih =>
    rw [List.flatMap_cons, List.append_assoc, readAll_group, List.map_cons, List.foldlM_cons]
    cases g.wish.effect r with
    | error stop => rfl
    | ok next => exact ih next

theorem separator_notMem_classified (groups : List Group) :
    Argument.separator ∉ groups.flatMap Group.classified := by
  rw [List.mem_flatMap]
  rintro ⟨g, -, hg⟩
  cases g <;> simp [Group.classified] at hg

theorem effect_packageFile {wish : Wish} {r' : Reading} (h : wish.effect r = .ok r') :
    r'.packageFile = r.packageFile := by
  cases wish with
  | give o value => exact Except.ok.inj h ▸ r.give_packageFile o.name _
  | set f => exact Reading.flag_packageFile h

theorem foldlM_effect_packageFile {r' : Reading} (h : wishes.foldlM Wish.effect r = .ok r') :
    r'.packageFile = r.packageFile := by
  induction wishes generalizing r with
  | nil => exact Except.ok.inj h ▸ rfl
  | cons wish wishes ih =>
    obtain ⟨next, hwish, h⟩ := bind_eq_ok.1 h
    exact (ih h).trans (effect_packageFile hwish)

/-- It makes no difference when the package file is named. -/
theorem effect_name (P : String) (wish : Wish) (r : Reading) :
    wish.effect { r with packageFile := some P } =
      (wish.effect r).map fun r' => { r' with packageFile := some P } := by
  cases wish with
  | give o value => cases o <;> rfl
  | set f =>
    cases f with
    | dryRun => rfl
    | quiet => cases h : r.verbose <;> simp [Wish.effect, Flag.name, Reading.flag, h]
    | verbose => cases h : r.quiet <;> simp [Wish.effect, Flag.name, Reading.flag, h]

theorem foldlM_effect_name (P : String) (wishes : List Wish) (r : Reading) :
    wishes.foldlM Wish.effect { r with packageFile := some P } =
      (wishes.foldlM Wish.effect r).map fun r' => { r' with packageFile := some P } := by
  induction wishes generalizing r with
  | nil => rfl
  | cons wish wishes ih =>
    rw [List.foldlM_cons, List.foldlM_cons, effect_name]
    cases wish.effect r with
    | error stop => rfl
    | ok next => exact ih next

theorem readAll_line (front : List Group) (P : String) (back : List Group) :
    Reading.start.readAll
        (front.flatMap Group.classified ++ .positional P :: back.flatMap Group.classified) =
      (((front ++ back).map Group.wish).foldlM Wish.effect .start).map fun r =>
        { r with packageFile := some P } := by
  rw [readAll_groups, List.map_append, List.foldlM_append]
  cases hfront : (front.map Group.wish).foldlM Wish.effect .start with
  | error stop => rfl
  | ok r =>
    have hnone : r.packageFile = none := foldlM_effect_packageFile hfront
    have hback := readAll_groups { r with packageFile := some P } back []
    rw [List.append_nil, foldlM_effect_name] at hback
    rw [ok_bind, ok_bind, Reading.readAll, hnone]
    dsimp only
    split
    · next rest hrest =>
      exact absurd (hrest ▸ List.mem_cons_self ..) (separator_notMem_classified back)
    · rw [hback]
      cases (back.map Group.wish).foldlM Wish.effect r <;> rfl

/-! ## What is asked for -/

def Reading.ofWishes (wishes : List Wish) : Reading where
  packageFile := none
  home := (valuesFor .home wishes).getLast?.map .value
  cargo := (valuesFor .cargo wishes).getLast?.map .value
  host := (valuesFor .host wishes).getLast?.map .value
  dryRun := decide (.set .dryRun ∈ wishes)
  quiet := decide (.set .quiet ∈ wishes)
  verbose := decide (.set .verbose ∈ wishes)
  unrecognized := []

theorem SameWishes.ofWishes (h : SameWishes wishes wishes') :
    Reading.ofWishes wishes' = Reading.ofWishes wishes := by
  simp only [Reading.ofWishes, h.last, h.flag]

theorem SameWishes.clash (h : SameWishes wishes wishes') : Clash wishes' ↔ Clash wishes := by
  rw [Clash, Clash, h.flag, h.flag]

theorem valuesFor_append (o : Valued) (wishes wishes' : List Wish) :
    valuesFor o (wishes ++ wishes') = valuesFor o wishes ++ valuesFor o wishes' :=
  List.filterMap_append

theorem ofWishes_give (wishes : List Wish) (o : Valued) (value : String) :
    (Reading.ofWishes wishes).give o.name (.value value) =
      .ofWishes (wishes ++ [.give o value]) := by
  cases o <;> simp [Reading.ofWishes, Reading.give, Valued.name, valuesFor, Wish.valueFor?]

theorem ofWishes_set {f : Flag} (h : ¬ Clash (wishes ++ [.set f])) :
    (Reading.ofWishes wishes).flag f.name = .ok (.ofWishes (wishes ++ [.set f])) := by
  cases f <;> simp_all [Reading.ofWishes, Reading.flag, Flag.name, valuesFor, Wish.valueFor?, Clash]

theorem foldlM_effect_of_not_clash (h : ¬ Clash wishes) :
    wishes.foldlM Wish.effect .start = .ok (.ofWishes wishes) := by
  induction wishes using List.reverseRecOn with
  | nil => rfl
  | append_singleton wishes wish ih =>
    have hfront : ¬ Clash wishes := fun hclash =>
      h ⟨List.mem_append_left _ hclash.1, List.mem_append_left _ hclash.2⟩
    rw [List.foldlM_append, ih hfront, ok_bind, List.foldlM_cons]
    cases wish with
    | give o value =>
      rw [Wish.effect, ofWishes_give, ok_bind]
      rfl
    | set f =>
      rw [Wish.effect, ofWishes_set h, ok_bind]
      rfl

theorem foldlM_effect_of_clash (h : Clash wishes) :
    ∃ o earlier, wishes.foldlM Wish.effect .start = .error (.misuse (.conflict o earlier)) := by
  induction wishes using List.reverseRecOn with
  | nil => cases h.1
  | append_singleton wishes wish ih =>
    rw [List.foldlM_append]
    by_cases hfront : Clash wishes
    · obtain ⟨o, earlier, hwishes⟩ := ih hfront
      exact ⟨o, earlier, by rw [hwishes]; rfl⟩
    · rw [foldlM_effect_of_not_clash hfront, ok_bind, List.foldlM_cons]
      simp only [Clash, List.mem_append, List.mem_singleton] at h hfront
      obtain ⟨hquiet | rfl, hverbose | hlast⟩ := h
      · exact absurd ⟨hquiet, hverbose⟩ hfront
      · subst hlast
        refine ⟨.verbose, .quiet, ?_⟩
        simp [Wish.effect, Reading.flag, Flag.name, Reading.ofWishes, hquiet]
      · refine ⟨.quiet, .verbose, ?_⟩
        simp [Wish.effect, Reading.flag, Flag.name, Reading.ofWishes, hverbose]
      · cases hlast

theorem ofArguments_line_of_not_clash (hP : P.toList.head? ≠ some '-') {front back : List Group}
    (h : ¬ Clash ((front ++ back).map Group.wish)) :
    Request.ofArguments (line front P back) =
      Reading.finish
        { Reading.ofWishes ((front ++ back).map Group.wish) with packageFile := some P } := by
  apply Request.ofArguments_of_readAll (classifyAll_line front hP back)
  rw [readAll_line, foldlM_effect_of_not_clash h, map_ok]

theorem ofArguments_line_of_clash (hP : P.toList.head? ≠ some '-') {front back : List Group}
    (h : Clash ((front ++ back).map Group.wish)) :
    ∃ o earlier,
      Request.ofArguments (line front P back) = .error (.misuse (.conflict o earlier)) := by
  obtain ⟨o, earlier, hwishes⟩ := foldlM_effect_of_clash h
  refine ⟨o, earlier, ?_⟩
  unfold Request.ofArguments
  rw [classifyAll_line front hP back, mapError_ok, ok_bind, readAll_line, hwishes]
  rfl

/-! ## Rearranging a line -/

/-- The groups in another order, in which each option still has its values in their order, or in
other spellings, or without one whose option has a value further on. -/
inductive Rearranges : List Group → List Group → Prop where
  | reorder {groups groups' : List Group} (hperm : groups'.Perm groups)
      (horder : ∀ o, valuesFor o (groups'.map Group.wish) = valuesFor o (groups.map Group.wish)) :
      Rearranges groups groups'
  | respell {groups groups' : List Group}
      (h : groups'.map Group.wish = groups.map Group.wish) : Rearranges groups groups'
  | drop {early later : List Group} {g : Group} {o : Valued} {value : String}
      (hg : g.wish = .give o value) (hlater : valuesFor o (later.map Group.wish) ≠ []) :
      Rearranges (early ++ g :: later) (early ++ later)
  | trans {groups groups' groups'' : List Group} (h : Rearranges groups groups')
      (h' : Rearranges groups' groups'') : Rearranges groups groups''

theorem Rearranges.sameWishes {groups groups' : List Group} (h : Rearranges groups groups') :
    SameWishes (groups.map Group.wish) (groups'.map Group.wish) := by
  induction h with
  | reorder hperm horder =>
    exact ⟨fun o => by rw [horder], fun f => (hperm.map Group.wish).mem_iff⟩
  | respell h => exact ⟨fun o => by rw [h], fun f => by rw [h]⟩
  | @drop early later g o value hg hlater =>
    refine ⟨fun o' => ?_, fun f => by simp [hg]⟩
    rw [List.map_append, List.map_append, List.map_cons, hg, valuesFor_append, valuesFor_append,
      List.getLast?_append, List.getLast?_append]
    by_cases ho : o = o'
    · subst ho
      obtain ⟨last, hlast⟩ := Option.ne_none_iff_exists'.1 (mt List.getLast?_eq_none_iff.1 hlater)
      have hfirst : valuesFor o (.give o value :: later.map Group.wish) =
          value :: valuesFor o (later.map Group.wish) := by
        simp [valuesFor, Wish.valueFor?]
      rw [hfirst, List.getLast?_cons, hlast]
      rfl
    · have hskip : valuesFor o' (.give o value :: later.map Group.wish) =
          valuesFor o' (later.map Group.wish) := by
        simp [valuesFor, Wish.valueFor?, ho]
      rw [hskip]
  | trans _ _ ih ih' =>
    exact ⟨fun o => (ih'.last o).trans (ih.last o), fun f => (ih'.flag f).trans (ih.flag f)⟩

/-- A line with the package file anywhere among its groups does what its last values and its flags
ask for, however they are ordered and spelled. With a flag for less and one for more output it is
refused. -/
theorem run_line (w : World) {P : String} (hP : P.toList.head? ≠ some '-')
    (front back : List Group) :
    (¬ Clash ((front ++ back).map Group.wish) → ∀ front' back',
      (SameWishes ((front ++ back).map Group.wish) ((front' ++ back').map Group.wish) →
        run w (line front' P back') = run w (line front P back)) ∧
      (Rearranges (front ++ back) (front' ++ back') →
        run w (line front' P back') = run w (line front P back))) ∧
    (Clash ((front ++ back).map Group.wish) →
      ∃ complaint, run w (line front P back) = .ok ⟨2, "", complaint, []⟩) := by
  constructor
  · intro hclash front' back'
    have hrun : SameWishes ((front ++ back).map Group.wish) ((front' ++ back').map Group.wish) →
        run w (line front' P back') = run w (line front P back) := by
      intro hsame
      rw [run, run, ofArguments_line_of_not_clash hP hclash,
        ofArguments_line_of_not_clash hP (mt hsame.clash.1 hclash), hsame.ofWishes]
    exact ⟨hrun, fun h => hrun h.sameWishes⟩
  · intro hclash
    obtain ⟨o, earlier, hline⟩ := ofArguments_line_of_clash hP hclash
    rw [run, hline]
    exact ⟨_, rfl⟩

def groupedWorld : World where
  env name := if name = "NUPM_HOME" then some "/e" else none
  files path := if path = "a/Cargo.toml" then some (.ofText "package.name = 'n'\n") else none
  queue := []

theorem run_line_groupedWorld :
    run groupedWorld ["--home", "/x", "a/p", "--dry-run", "--home=/h"] =
        run groupedWorld ["--dry-run", "--home", "/h", "a/p"] ∧
      ∃ complaint, run groupedWorld ["-q", "a/p", "--verbose"] = .ok ⟨2, "", complaint, []⟩ := by
  have hP : "a/p".toList.head? ≠ some '-' := by decide
  have hx : "/x".toList.head? ≠ some '-' := by decide
  have hh : "/h".toList.head? ≠ some '-' := by decide
  let dry : Group := .flag .dryRun "--dry-run" (by decide)
  let front : List Group := [.apart .home "/x" hx]
  let back : List Group := [dry, .joined .home "/h" hh]
  constructor
  · have hdrop : Rearranges ([] ++ .apart .home "/x" hx :: back) ([] ++ back) :=
      .drop rfl (by simp [back, dry, Group.wish, valuesFor, Wish.valueFor?])
    have hspell : Rearranges back [dry, .apart .home "/h" hh] := .respell rfl
    have hclash : ¬ Clash ((front ++ back).map Group.wish) := by
      simp [Clash, front, back, dry, Group.wish]
    have hrun := (run_line groupedWorld hP front back).1 hclash [dry, .apart .home "/h" hh] []
    exact (hrun.2 (hdrop.trans hspell)).symm
  · have hclash : Clash ([Group.flag .quiet "-q" (by decide),
        .flag .verbose "--verbose" (by decide)].map Group.wish) := by
      simp [Clash, Group.wish]
    exact (run_line groupedWorld hP [.flag .quiet "-q" (by decide)]
      [.flag .verbose "--verbose" (by decide)]).2 hclash

end NuPlugin.CommandLine

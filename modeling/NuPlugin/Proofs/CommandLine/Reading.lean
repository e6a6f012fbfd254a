import NuPlugin.CommandLine.Request
import NuPlugin.Proofs.CommandLine.Argument

/-!
# Reading arguments

Options that bring their values, and what every way of reading arguments keeps.
-/

namespace NuPlugin.CommandLine

namespace Reading

/-! ## Options -/

def giveAll (r : Reading) (values : List (OptionName × String)) : Reading :=
  values.foldl (fun r v => r.give v.1 (.ofExplicit v.2)) r

theorem readAll_valued_append (r : Reading) {values : List (OptionName × String)}
    (h : ∀ v ∈ values, v.1.takesValue = true) (rest : List Argument) :
    r.readAll (values.map (fun v => Argument.option v.1 (some v.2)) ++ rest) =
      (r.giveAll values).readAll rest := by
  induction values generalizing r with
  | nil => rfl
  | cons v values ih =>
    rw [List.map_cons, List.cons_append, readAll, if_pos (h v (List.mem_cons_self ..))]
    exact ih _ fun v hv => h v (List.mem_cons_of_mem _ hv)

theorem readAll_flag_cons (r : Reading) {o : OptionName} (ho : o.takesValue = false)
    (rest : List Argument) :
    r.readAll (.option o none :: rest) = r.flag o >>= (·.readAll rest) := by
  rw [readAll.eq_def]
  dsimp only
  rw [if_neg (ne_true_of_eq_false ho)]

theorem give_packageFile (r : Reading) (o : OptionName) (given : Given) :
    (r.give o given).packageFile = r.packageFile := by
  cases o <;> rfl

theorem giveAll_packageFile (r : Reading) (values : List (OptionName × String)) :
    (r.giveAll values).packageFile = r.packageFile := by
  induction values generalizing r with
  | nil => rfl
  | cons v values ih =>
    rw [giveAll, List.foldl_cons]
    exact (ih _).trans (give_packageFile r v.1 _)

theorem readAll_packageFile {r : Reading} (h : r.packageFile = none) (s : String) :
    r.readAll [.separator, .positional s] = .ok { r with packageFile := some s } ∧
      r.readAll [.positional s] = .ok { r with packageFile := some s } := by
  constructor <;> simp [readAll, h]

/-! ## What a reading keeps -/

/-- What each effect of an argument keeps, the reading of all of them keeps. -/
structure Keeps (P : Reading → Prop) (classified : List Argument) : Prop where
  refuse : ∀ r s, P r → P (r.refuse s)
  name : ∀ r s, P r → P { r with packageFile := some s }
  explicit : ∀ r o s, Argument.option o (some s) ∈ classified → P r → P (r.give o (.ofExplicit s))
  next : ∀ r o s, P r → P (r.give o (.value s))
  flag : ∀ r o r', P r → r.flag o = .ok r' → P r'

namespace Keeps

variable {P : Reading → Prop}

theorem tail {first : Argument} {rest : List Argument} (h : Keeps P (first :: rest)) :
    Keeps P rest :=
  ⟨h.refuse, h.name, fun r o s hs => h.explicit r o s (List.mem_cons_of_mem _ hs), h.next, h.flag⟩

theorem foldlM_flag {classified : List Argument} (h : Keeps P classified) {r r' : Reading}
    {options : List OptionName} (hr : P r) (hflags : options.foldlM Reading.flag r = .ok r') :
    P r' := by
  induction options generalizing r with
  | nil => exact Except.ok.inj hflags ▸ hr
  | cons o options ih =>
    rw [List.foldlM_cons] at hflags
    obtain ⟨next, hflag, hflags⟩ := bind_eq_ok.1 hflags
    exact ih (h.flag r o next hr hflag) hflags

theorem readAll {classified : List Argument} (h : Keeps P classified) {r r' : Reading} (hr : P r)
    (hread : r.readAll classified = .ok r') : P r' := by
  fun_induction Reading.readAll r classified with
  | case1 r => exact Except.ok.inj hread ▸ hr
  | case2 r s rest _ _ ih => exact ih h.tail (h.refuse r s hr) hread
  | case3 r s _ _ rest ih => exact ih h.tail.tail (h.name r s hr) hread
  | case4 r s _ _ rest _ ih => exact ih h.tail (h.name r s hr) hread
  | case5 r rest _ _ ih => exact ih h.tail (h.refuse r _ hr) hread
  | case6 r rest _ ih => exact ih h.tail hr hread
  | case7 r s rest ih => exact ih h.tail (h.refuse r s hr) hread
  | case8 r first more rest ih =>
    obtain ⟨options, -, hread⟩ := bind_eq_ok.1 hread
    obtain ⟨next, hflags, hread⟩ := bind_eq_ok.1 hread
    exact ih next h.tail (h.foldlM_flag hr hflags) hread
  | case9 r o s rest _ ih =>
    exact ih h.tail (h.explicit r o s (List.mem_cons_self ..) hr) hread
  | case10 => cases hread
  | case11 r o _ s rest ih => exact ih h.tail.tail (h.next r o s hr) hread
  | case12 => cases hread
  | case13 r o rest _ ih =>
    obtain ⟨next, hflag, hread⟩ := bind_eq_ok.1 hread
    exact ih next h.tail (h.flag r o next hr hflag) hread

end Keeps

/-! ## Values -/

def HasValues (r : Reading) : Prop :=
  r.home ≠ some .nothing ∧ r.cargo ≠ some .nothing ∧ r.host ≠ some .nothing

theorem HasValues.give {r : Reading} (h : r.HasValues) (o : OptionName) (s : String) :
    (r.give o (.value s)).HasValues := by
  obtain ⟨h1, h2, h3⟩ := h
  cases o <;> simp [HasValues, Reading.give, h1, h2, h3]

theorem flag_values {r r' : Reading} {o : OptionName} (h : r.flag o = .ok r') :
    r'.home = r.home ∧ r'.cargo = r.cargo ∧ r'.host = r.host := by
  cases o with
  | help => cases h
  | version => cases h
  | quiet =>
    rw [flag] at h
    split at h <;> cases h
    exact ⟨rfl, rfl, rfl⟩
  | verbose =>
    rw [flag] at h
    split at h <;> cases h
    exact ⟨rfl, rfl, rfl⟩
  | _ => exact Except.ok.inj h ▸ ⟨rfl, rfl, rfl⟩

/-- Only the separator, written into the argument of an option, gives it nothing. -/
theorem keeps_hasValues {classified : List Argument}
    (h : ∀ o, Argument.option o (some "--") ∉ classified) : Keeps HasValues classified where
  refuse _ _ hr := hr
  name _ _ hr := hr
  explicit r o s hs hr := by
    have hne : s ≠ "--" := fun he => h o (he ▸ hs)
    rw [Given.ofExplicit, if_neg hne]
    exact hr.give o s
  next _ o s hr := hr.give o s
  flag r o r' hr hflag := by
    obtain ⟨h1, h2, h3⟩ := flag_values hflag
    rw [HasValues, h1, h2, h3]
    exact hr

end Reading

end NuPlugin.CommandLine

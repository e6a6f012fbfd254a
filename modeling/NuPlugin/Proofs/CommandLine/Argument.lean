import NuPlugin.CommandLine.Argument
import NuPlugin.Proofs.Except
import Mathlib.Data.List.TakeWhile

/-!
# What arguments are taken for

The full spellings of options, with and without a value, and arguments without a dash.
-/

namespace NuPlugin.CommandLine

namespace OptionName

theorem long_toList (o : OptionName) : ∃ rest, o.long.toList = '-' :: '-' :: rest := by
  cases o <;> exact ⟨_, rfl⟩

theorem equals_notMem_long (o : OptionName) : '=' ∉ o.long.toList := by
  cases o <;> decide

theorem ofLong?_long (o : OptionName) : ofLong? o.long.toList = some o := by
  cases o <;> decide

end OptionName

namespace Argument

theorem splitValue_of_notMem {s : List Char} (h : '=' ∉ s) : splitValue s = (s, none) := by
  have hs : s.dropWhile (· ≠ '=') = [] := by
    rw [List.dropWhile_eq_nil_iff]
    intro c hc
    simpa using fun he : c = '=' => h (he ▸ hc)
  rw [splitValue, hs]

theorem splitValue_append {name : List Char} (h : '=' ∉ name) (value : List Char) :
    splitValue (name ++ '=' :: value) = (name, some value) := by
  have hname : ∀ c ∈ name, decide (c ≠ '=') = true := by
    intro c hc
    simpa using fun he : c = '=' => h (he ▸ hc)
  have hdrop : (name ++ '=' :: value).dropWhile (· ≠ '=') = '=' :: value := by
    rw [List.dropWhile_append_of_pos hname, List.dropWhile_cons_of_neg (by simp)]
  have htake : (name ++ '=' :: value).takeWhile (· ≠ '=') = name := by
    rw [List.takeWhile_append_of_pos hname, List.takeWhile_cons_of_neg (by simp),
      List.append_nil]
  rw [splitValue, hdrop, htake]

theorem classify_long (o : OptionName) : classify o.long = .ok (.option o none) := by
  obtain ⟨rest, hrest⟩ := o.long_toList
  unfold classify
  rw [hrest]
  simp only [classifyLong, splitValue_of_notMem o.equals_notMem_long, o.ofLong?_long, Option.map]

theorem classify_valued (o : OptionName) (value : String) :
    classify (o.long ++ "=" ++ value) = .ok (.option o (some value)) := by
  obtain ⟨rest, hrest⟩ := o.long_toList
  have hs : (o.long ++ "=" ++ value).toList = o.long.toList ++ '=' :: value.toList := by
    simp [String.toList_append]
  unfold classify
  rw [hs, hrest]
  simp only [List.cons_append, classifyLong, hs, splitValue_append o.equals_notMem_long,
    o.ofLong?_long, Option.map_some, String.ofList_toList]

theorem classify_of_head_ne {s : String} (h : s.toList.head? ≠ some '-') :
    classify s = .ok (.positional s) := by
  unfold classify
  split
  · next hs => simp [hs] at h
  · next hs => simp [hs] at h
  · rfl

theorem valued_ne_separator (o : OptionName) (value : String) :
    o.long ++ "=" ++ value ≠ "--" := by
  intro h
  have hmem : '=' ∈ (o.long ++ "=" ++ value).toList := by simp [String.toList_append]
  rw [h] at hmem
  exact absurd hmem (by decide)

/-! ## Lists of arguments -/

theorem classifyAll_separator (rest : List String) :
    classifyAll ("--" :: rest) = .ok (.separator :: rest.map .positional) := by
  rw [classifyAll, if_pos rfl]

theorem classifyAll_cons {s : String} {first : Argument} (hs : s ≠ "--")
    (hclass : classify s = .ok first) (rest : List String) :
    classifyAll (s :: rest) = (classifyAll rest).map (first :: ·) := by
  rw [classifyAll, if_neg hs, hclass]
  cases classifyAll rest <;> rfl

theorem classifyAll_valued (o : OptionName) (value : String) (rest : List String) :
    classifyAll ((o.long ++ "=" ++ value) :: rest) =
      (classifyAll rest).map (.option o (some value) :: ·) :=
  classifyAll_cons (valued_ne_separator o value) (classify_valued o value) rest

theorem classifyAll_valued_append (values : List (OptionName × String)) (rest : List String) :
    classifyAll (values.map (fun v => v.1.long ++ "=" ++ v.2) ++ rest) =
      (classifyAll rest).map (values.map (fun v => Argument.option v.1 (some v.2)) ++ ·) := by
  induction values with
  | nil => cases h : classifyAll rest <;> simp [h]
  | cons v values ih =>
    rw [List.map_cons, List.cons_append, classifyAll_valued, ih]
    cases classifyAll rest <;> rfl

theorem classifyAll_of_head_ne {s : String} (h : s.toList.head? ≠ some '-')
    (rest : List String) :
    classifyAll (s :: rest) = (classifyAll rest).map (.positional s :: ·) := by
  have hs : s ≠ "--" := by
    rintro rfl
    exact h rfl
  exact classifyAll_cons hs (classify_of_head_ne h) rest

end Argument

end NuPlugin.CommandLine

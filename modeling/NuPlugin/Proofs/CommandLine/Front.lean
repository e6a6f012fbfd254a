import NuPlugin.Proofs.CommandLine.Request

/-!
# What may as well come first

A change of what has been read so far can often be made before the remaining arguments are read
instead of after them. It is enough that it can be moved in front of the effect of each argument.
-/

namespace NuPlugin.CommandLine

namespace Reading

/-- Wherever the change is allowed after an effect, it was allowed before it, and comes to the same
there. It does not name a package file, or a positional argument would be taken for another. -/
structure Advances (change : Reading → Reading) (Allowed : Reading → Prop) : Prop where
  packageFile : ∀ r, (change r).packageFile = r.packageFile
  refuse : ∀ r s, Allowed (r.refuse s) → Allowed r ∧ (change r).refuse s = change (r.refuse s)
  name : ∀ r s, Allowed { r with packageFile := some s } →
    Allowed r ∧ { change r with packageFile := some s } = change { r with packageFile := some s }
  give : ∀ r o given, Allowed (r.give o given) →
    Allowed r ∧ (change r).give o given = change (r.give o given)
  flag : ∀ r o r', r.flag o = .ok r' → Allowed r' →
    Allowed r ∧ (change r).flag o = .ok (change r')

namespace Advances

variable {change : Reading → Reading} {Allowed : Reading → Prop} {r r' : Reading}

theorem foldlM_flag (h : Advances change Allowed) {options : List OptionName}
    (hflags : options.foldlM Reading.flag r = .ok r') (hr' : Allowed r') :
    Allowed r ∧ options.foldlM Reading.flag (change r) = .ok (change r') := by
  induction options generalizing r with
  | nil =>
    obtain rfl := Except.ok.inj hflags
    exact ⟨hr', rfl⟩
  | cons o options ih =>
    obtain ⟨next, hflag, hflags⟩ := bind_eq_ok.1 hflags
    obtain ⟨hnext, hoptions⟩ := ih hflags
    obtain ⟨hr, hchanged⟩ := h.flag r o next hflag hnext
    exact ⟨hr, bind_eq_ok.2 ⟨change next, hchanged, hoptions⟩⟩

theorem readAll (h : Advances change Allowed) {classified : List Argument}
    (hread : r.readAll classified = .ok r') (hr' : Allowed r') :
    Allowed r ∧ (change r).readAll classified = .ok (change r') := by
  -- From the last argument to the first: the rest allows the change behind an effect, so before.
  fun_induction Reading.readAll r classified with
  | case1 r =>
    obtain rfl := Except.ok.inj hread
    exact ⟨hr', rfl⟩
  | case2 r s rest file hnamed ih =>
    obtain ⟨hnext, hread⟩ := ih hread
    obtain ⟨hr, hchanged⟩ := h.refuse r s hnext
    rw [Reading.readAll, h.packageFile, hnamed, hchanged]
    exact ⟨hr, hread⟩
  | case3 r s hnone named rest ih =>
    obtain ⟨hnext, hread⟩ := ih hread
    obtain ⟨hr, hchanged⟩ := h.name r s hnext
    rw [Reading.readAll, h.packageFile, hnone, hchanged]
    exact ⟨hr, hread⟩
  | case4 r s hnone named rest hrest ih =>
    obtain ⟨hnext, hread⟩ := ih hread
    obtain ⟨hr, hchanged⟩ := h.name r s hnext
    rw [Reading.readAll, h.packageFile, hnone, hchanged]
    dsimp only
    split
    · exact absurd rfl (hrest _)
    · exact ⟨hr, hread⟩
  | case5 r rest file hnamed ih =>
    obtain ⟨hnext, hread⟩ := ih hread
    obtain ⟨hr, hchanged⟩ := h.refuse r "--" hnext
    rw [Reading.readAll, h.packageFile, hnamed, hchanged]
    exact ⟨hr, hread⟩
  | case6 r rest hnone ih =>
    rw [Reading.readAll, h.packageFile, hnone]
    exact ih hread
  | case7 r s rest ih =>
    obtain ⟨hnext, hread⟩ := ih hread
    obtain ⟨hr, hchanged⟩ := h.refuse r s hnext
    rw [Reading.readAll, hchanged]
    exact ⟨hr, hread⟩
  | case8 r letter more rest ih =>
    obtain ⟨options, hoptions, hread⟩ := bind_eq_ok.1 hread
    obtain ⟨next, hflags, hread⟩ := bind_eq_ok.1 hread
    obtain ⟨hnext, hread⟩ := ih next hread
    obtain ⟨hr, hchanged⟩ := h.foldlM_flag hflags hnext
    rw [Reading.readAll, hoptions, ok_bind, hchanged]
    exact ⟨hr, hread⟩
  | case9 r o value rest hvalued ih =>
    obtain ⟨hnext, hread⟩ := ih hread
    obtain ⟨hr, hchanged⟩ := h.give r o _ hnext
    rw [Reading.readAll, if_pos hvalued, hchanged]
    exact ⟨hr, hread⟩
  | case10 => cases hread
  | case11 r o hvalued value rest ih =>
    obtain ⟨hnext, hread⟩ := ih hread
    obtain ⟨hr, hchanged⟩ := h.give r o _ hnext
    rw [Reading.readAll, if_pos hvalued, hchanged]
    exact ⟨hr, hread⟩
  | case12 => cases hread
  | case13 r o rest hvalued ih =>
    obtain ⟨next, hflag, hread⟩ := bind_eq_ok.1 hread
    obtain ⟨hnext, hread⟩ := ih next hread
    obtain ⟨hr, hchanged⟩ := h.flag r o next hflag hnext
    rw [Reading.readAll_flag_cons _ (Bool.eq_false_iff.2 hvalued), hchanged]
    exact ⟨hr, hread⟩

end Advances

end Reading

/-- An argument in front of others may as well be read behind them, if what it does can be done in
advance. -/
theorem Request.ofArguments_front {change : Reading → Reading} {Allowed : Reading → Prop}
    (h : Reading.Advances change Allowed) {s : String} {first : Argument} {arguments : List String}
    {r : Request}
    (hclass : Argument.classifyAll (s :: arguments) =
      (Argument.classifyAll arguments).map (first :: ·))
    (hfirst : ∀ rest, Allowed .start →
      Reading.start.readAll (first :: rest) = (change .start).readAll rest)
    (hr : ofArguments arguments = .ok r) :
    ∃ reading : Reading, reading.finish = .ok r ∧
      (Allowed reading → ofArguments (s :: arguments) = (change reading).finish) := by
  obtain ⟨classified, reading, hrest, hread, hfinish⟩ := readAll_of_ofArguments hr
  refine ⟨reading, hfinish, fun hallowed => ?_⟩
  obtain ⟨hstart, hlast⟩ := h.readAll hread hallowed
  rw [← hfirst classified hstart] at hlast
  rw [hrest, map_ok] at hclass
  exact ofArguments_of_readAll hclass hlast

end NuPlugin.CommandLine

import NuPlugin.Manifest
import NuPlugin.Proofs.Text.Utf8
import NuPlugin.Proofs.Toml.Binding

/-!
# Names in growing manifests

A manifest that gives a name may be followed by any text. It then gives that name or none.
-/

namespace NuPlugin

theorem toList_ne_nil_of_isAllBlank {s : String} (h : Text.isAllBlank s = false) :
    s.toList ≠ [] := by
  intro hnil
  rw [Text.isAllBlank, hnil] at h
  cases h

namespace Manifest

variable {files files' : Files} {path path' : Path} {name first second : String}

/-! ## The name in a table -/

theorem nameInTable_eq_ok {t : Toml.Table} (h : nameInTable t = .ok name) :
    t.Binds ["package", "name"] name ∧ Text.isAllBlank name = false := by
  unfold nameInTable at h
  split at h
  · next package hpackage =>
    split at h
    · next text hname =>
      split at h
      · cases h
      · next hblank =>
        cases h
        exact ⟨.under hpackage (.here hname), Bool.eq_false_iff.2 hblank⟩
    · cases h
  · cases h

theorem nameInTable_of_binds {t : Toml.Table} (h : t.Binds ["package", "name"] name)
    (hblank : Text.isAllBlank name = false) : nameInTable t = .ok name := by
  rcases h.find?_cases with ⟨hnil, -⟩ | ⟨package, hpackage, hname⟩
  · cases hnil
  · rcases hname.find?_cases with ⟨-, hname⟩ | ⟨inner, -, hnil⟩
    · simp [nameInTable, hpackage, hname, hblank]
    · exact absurd rfl hnil.ne_nil

/-! ## The name in a text -/

theorem packageName_ofText (h : files path.toString = some (.ofText first)) :
    packageName files path = (nameInText first.toList).mapError (Refusal.toFailure path) := by
  rw [packageName, h]
  simp only [Option.getD_some, FileContent.ofText, nameInBytes, Text.Utf8.decode_encode]

theorem nameInText_eq_ok {s : List Char} (h : nameInText s = .ok name) :
    ∃ d, Toml.Draft.empty.readAll (Toml.joinNewlines s) = .ok d ∧
      nameInTable d.root = .ok name := by
  unfold nameInText at h
  dsimp only at h
  rw [Toml.readDocument_eq] at h
  cases hread : Toml.Draft.empty.readAll (Toml.joinNewlines s) with
  | error fault =>
    rw [hread] at h
    cases fault <;> cases h
  | ok d =>
    rw [hread] at h
    exact ⟨d, rfl, h⟩

theorem nameInText_of_readAll {s : List Char} {d : Toml.Draft}
    (h : Toml.Draft.empty.readAll (Toml.joinNewlines s) = .ok d) :
    nameInText s = nameInTable d.root := by
  unfold nameInText
  dsimp only
  rw [Toml.readDocument_eq, h]
  rfl

/-! ## More text -/

section

variable {s : List Char} {d : Toml.Draft} (hend : s.getLast? = some '\n')
  (hread : Toml.Draft.empty.readAll (Toml.joinNewlines s) = .ok d)

include hend hread

theorem readAll_joinNewlines_append (t : List Char) :
    Toml.Draft.empty.readAll (Toml.joinNewlines (s ++ t)) = d.readAll (Toml.joinNewlines t) := by
  have hseam : Toml.Seam (Toml.joinNewlines s) (Toml.joinNewlines t) :=
    Or.inl ((Toml.getLast?_joinNewlines s).trans hend)
  rw [Toml.joinNewlines_append (by rw [hend]; decide)]
  exact Toml.Draft.readAll_append (Or.inr hseam) hread

theorem nameInText_append {t : List Char} {other : String} (hname : nameInTable d.root = .ok name)
    (h : nameInText (s ++ t) = .ok other) : other = name := by
  obtain ⟨hbinds, hblank⟩ := nameInTable_eq_ok hname
  obtain ⟨d', hread', hother⟩ := nameInText_eq_ok h
  rw [readAll_joinNewlines_append hend hread t] at hread'
  have hkept := nameInTable_of_binds (Toml.Draft.readAll_binds hbinds hread') hblank
  exact Except.ok.inj (hother.symm.trans hkept)

theorem nameInText_append_header (hname : nameInTable d.root = .ok name) (t : List Char) :
    ∃ place, nameInText (s ++ ("[package]\n".toList ++ t)) =
      .error (.malformed (.declaredTwice ["package"]) place) := by
  have hbinds : d.root.Binds (["package"] ++ ["name"]) name := (nameInTable_eq_ok hname).1
  have hguards := (Toml.Draft.guarded_readAll hread).bound hbinds (List.cons_ne_nil _ _)
  have hjoin : Toml.joinNewlines ("[package]\n".toList ++ t) =
      '[' :: ("package]\n".toList ++ Toml.joinNewlines t) :=
    Toml.joinNewlines_append (by decide) t
  have hseam : Toml.Seam "package]\n".toList (Toml.joinNewlines t) := Or.inl rfl
  have hfirst : ("package]\n".toList ++ Toml.joinNewlines t).head? ≠ some '[' := by
    simp
  have hkey : Toml.Key.read (Toml.skipSpaces "package]\n".toList) =
      .ok (⟨[], "package"⟩, "]\n".toList) := by
    rfl
  unfold nameInText
  dsimp only
  rw [Toml.readDocument_eq, readAll_joinNewlines_append hend hread, hjoin,
    Toml.Draft.readAll_of_guards hseam hfirst hkey hguards]
  exact ⟨_, rfl⟩

end

/-- More text cannot give a manifest another name, and a second header for the table that the
name stands in is always refused. -/
theorem packageName_append (hend : first.toList.getLast? = some '\n')
    (hfirst : files path.toString = some (.ofText first))
    (hname : packageName files path = .ok name)
    (hwhole : files' path'.toString = some (.ofText (first ++ second))) :
    (∀ other, packageName files' path' = .ok other → other = name) ∧
      ∀ rest, second = "[package]\n" ++ rest →
        ∃ place : Toml.Location, packageName files' path' =
          .error (.install (.invalidManifest path'
            ((Toml.Cause.declaredTwice ["package"]).message ++ " (" ++ place.message ++ ")"))) := by
  rw [packageName_ofText hfirst, mapError_eq_ok] at hname
  obtain ⟨d, hread, hname⟩ := nameInText_eq_ok hname
  rw [packageName_ofText hwhole, String.toList_append]
  constructor
  · intro other hother
    rw [mapError_eq_ok] at hother
    exact nameInText_append hend hread hname hother
  · rintro rest rfl
    obtain ⟨place, hrefused⟩ := nameInText_append_header hend hread hname rest.toList
    refine ⟨place, ?_⟩
    rw [String.toList_append, hrefused]
    rfl

/-- A dotted key binds a name as well as a header does. -/
theorem packageName_append_dotted :
    packageName (fun _ => some (.ofText "package.'name' = \"n\"\n")) (.ofString "Cargo.toml") =
        .ok "n" ∧
      ∃ place : Toml.Location,
        packageName (fun _ => some (.ofText ("package.'name' = \"n\"\n" ++
            "[package]\nname = \"m\"\n"))) (.ofString "Cargo.toml") =
          .error (.install (.invalidManifest (.ofString "Cargo.toml")
            ((Toml.Cause.declaredTwice ["package"]).message ++ " (" ++ place.message ++ ")"))) := by
  have hname : packageName (fun _ => some (.ofText "package.'name' = \"n\"\n"))
      (.ofString "Cargo.toml") = .ok "n" := by decide +kernel
  exact ⟨hname, (packageName_append (by decide) rfl hname rfl).2 "name = \"m\"\n" (by decide)⟩

end Manifest

end NuPlugin

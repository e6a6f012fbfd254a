import NuPlugin.Proofs.Manifest
import NuPlugin.Proofs.Outcome
import NuPlugin.Proofs.Toml.Control
import NuPlugin.Proofs.Toml.Line

/-!
# The layout of manifests

No control character but tabs and newlines stands in a manifest that gives a name. The way that
newlines are written, lines without pieces at the beginning and a newline at the end have no part in
the name.
-/

namespace NuPlugin

variable {s w : List Char}

/-! ## Newlines with and without returns -/

namespace Toml

/-- A carriage return is put before each newline that has none. -/
def addReturns : List Char → List Char
  | '\r' :: '\n' :: rest => '\r' :: '\n' :: addReturns rest
  | '\n' :: rest => '\r' :: '\n' :: addReturns rest
  | c :: rest => c :: addReturns rest
  | [] => []

theorem addReturns_head? (s : List Char) : (addReturns s).head? ≠ some '\n' := by
  fun_cases addReturns s with
  | case1 rest => simp
  | case2 rest => simp
  | case3 c rest hreturn hc => simpa using hc
  | case4 => simp

theorem joinNewlines_addReturns (s : List Char) : joinNewlines (addReturns s) = joinNewlines s := by
  fun_induction addReturns s with
  | case1 rest ih => rw [joinNewlines, joinNewlines, ih]
  | case2 rest ih => rw [joinNewlines, ih, joinNewlines_cons (by simp)]
  | case3 c rest hreturn hc ih =>
    -- A return that is followed by no newline stays a character of its own on both sides.
    have hfirst : c = '\r' → rest.head? ≠ some '\n' := by
      rintro rfl hn
      obtain ⟨rest', rfl⟩ := List.head?_eq_some_iff.1 hn
      exact hreturn rest' rfl rfl
    rw [joinNewlines_cons fun _ => addReturns_head? rest, joinNewlines_cons hfirst, ih]
  | case4 => rfl

theorem MarginLines.joinNewlines_append (h : MarginLines w) (s : List Char) :
    joinNewlines (w ++ s) = w ++ joinNewlines s := by
  have hread : Draft.empty.readAll (w ++ []) = .ok Draft.empty := Draft.readAll_marginLines h []
  rw [List.append_nil] at hread
  have hreturn := Draft.return_notMem_of_readAll hread
  rw [Toml.joinNewlines_append fun hlast => hreturn (List.mem_of_getLast? hlast),
    joinNewlines_of_notMem hreturn]

end Toml

open Toml (Draft MarginLines)

namespace Manifest

variable {files files' : Files} {path : Path} {text name : String}

/-! ## Control characters -/

/-- A control character that is no tab and no newline. -/
def IsStray (c : Char) : Prop := (c.toNat < 0x20 ∨ c.toNat = 0x7F) ∧ c ≠ '\t' ∧ c ≠ '\n'

instance (c : Char) : Decidable (IsStray c) := inferInstanceAs (Decidable (_ ∧ _))

theorem isForbidden_of_isStray {c : Char} (h : IsStray c) : Toml.isForbidden true c = true := by
  obtain ⟨hcontrol, htab, hnewline⟩ := h
  simpa [Toml.isForbidden, Toml.isControl, htab, hnewline] using hcontrol

theorem not_isStray_of_nameInText (h : nameInText s = .ok name) :
    ∀ c ∈ Toml.joinNewlines s, ¬IsStray c := by
  intro c hc hstray
  obtain ⟨d, hread, -⟩ := nameInText_eq_ok h
  have hclean := Draft.readAll_clean hread c hc
  rw [isForbidden_of_isStray hstray] at hclean
  cases hclean

theorem packageName_cases_ofText (h : files path.toString = some (.ofText text)) :
    (∃ name, packageName files path = .ok name) ∨
      (∃ reason, packageName files path = .error (.install (.invalidManifest path reason))) ∨
      ∃ digits, packageName files path = .error (.integerTooLong digits) := by
  rcases packageName_cases files path with
    hname | ⟨reason, hreason⟩ | hinvalid | hlong | ⟨reason, hreason⟩
  · exact .inl hname
  · obtain ⟨e, he, -⟩ := packageName_unreadable_iff.1 hreason
    rw [contentAt, h] at he
    cases he
  · exact .inr (.inl hinvalid)
  · exact .inr (.inr hlong)
  · have hrefused := packageName_refused_iff.1 hreason
    rw [contentAt, h] at hrefused
    cases hrefused

/-- No control character but tabs and newlines gets through. A manifest with another one, wherever
it stands, is refused or broken off. -/
theorem packageName_of_isStray (hfile : files path.toString = some (.ofText text)) :
    (∀ name, packageName files path = .ok name →
        ∀ c ∈ Toml.joinNewlines text.toList, ¬IsStray c) ∧
      ∀ c ∈ Toml.joinNewlines text.toList, IsStray c →
        (∃ reason, packageName files path = .error (.install (.invalidManifest path reason))) ∨
          ∃ digits, packageName files path = .error (.integerTooLong digits) := by
  have hclean : ∀ name, packageName files path = .ok name →
      ∀ c ∈ Toml.joinNewlines text.toList, ¬IsStray c := by
    intro name hname
    rw [packageName_ofText hfile, mapError_eq_ok] at hname
    exact not_isStray_of_nameInText hname
  refine ⟨hclean, ?_⟩
  intro c hc hstray
  rcases packageName_cases_ofText hfile with ⟨name, hname⟩ | hfailed
  · exact absurd hstray (hclean name hname c hc)
  · exact hfailed

theorem packageName_of_isStray_comment :
    let files : Files := fun _ => some (.ofText "[package] # \x0c\nname = 'n'\r\n")
    (∃ reason, packageName files (.ofString "Cargo.toml") =
        .error (.install (.invalidManifest (.ofString "Cargo.toml") reason))) ∨
      ∃ digits, packageName files (.ofString "Cargo.toml") = .error (.integerTooLong digits) :=
  (packageName_of_isStray rfl).2 '\x0c' (by decide) (by decide)

/-! ## Layout -/

/-- Two ends of reading the manifest at a path that give the same name or fail in the same way. -/
inductive EndsAlike (path : Path) : Except Failure String → Except Failure String → Prop where
  | ok (name : String) : EndsAlike path (.ok name) (.ok name)
  | invalid (reason reason' : String) :
      EndsAlike path (.error (.install (.invalidManifest path reason)))
        (.error (.install (.invalidManifest path reason')))
  | integerTooLong (digits : Nat) :
      EndsAlike path (.error (.integerTooLong digits)) (.error (.integerTooLong digits))

theorem EndsAlike.mapError (path : Path) (x : Except Refusal String) :
    EndsAlike path (x.mapError (Refusal.toFailure path)) (x.mapError (Refusal.toFailure path)) := by
  cases x with
  | ok name => exact .ok name
  | error refusal =>
    cases refusal with
    | integerTooLong digits => exact .integerTooLong digits
    | _ => exact .invalid _ _

theorem nameInText_addReturns (s : List Char) : nameInText (Toml.addReturns s) = nameInText s := by
  unfold nameInText
  rw [Toml.joinNewlines_addReturns]

/-- Lines without pieces shift the place of a fault and nothing else. -/
theorem nameInText_marginLines (h : MarginLines w) (s : List Char) :
    EndsAlike path ((nameInText s).mapError (Refusal.toFailure path))
      ((nameInText (w ++ s)).mapError (Refusal.toFailure path)) := by
  have hread : Toml.readDocument (Toml.joinNewlines (w ++ s)) =
      Toml.readDocument (Toml.joinNewlines s) := by
    rw [h.joinNewlines_append, Toml.readDocument_eq, Draft.readAll_marginLines h,
      Toml.readDocument_eq]
  unfold nameInText
  dsimp only
  rw [hread]
  cases Toml.readDocument (Toml.joinNewlines s) with
  | error fault =>
    cases fault with
    | malformed cause rest => exact .invalid _ _
    | integerTooLong digits => exact .integerTooLong digits
  | ok t => exact .mapError path (nameInTable t)

theorem nameInText_newline (h : nameInText s = .ok name) : nameInText (s ++ ['\n']) = .ok name := by
  obtain ⟨d, hread, hname⟩ := nameInText_eq_ok h
  have hlast : s.getLast? ≠ some '\r' := by
    intro hreturn
    rw [← Toml.getLast?_joinNewlines] at hreturn
    exact Draft.return_notMem_of_readAll hread (List.mem_of_getLast? hreturn)
  have hread' : Draft.empty.readAll (Toml.joinNewlines (s ++ ['\n'])) = .ok d := by
    rw [Toml.joinNewlines_append hlast, Draft.readAll_append (.inr (.inr rfl)) hread]
    rfl
  exact (nameInText_of_readAll hread').trans hname

/-- Layout does not change how a manifest ends: a return before each newline changes nothing at all,
lines without pieces in front of it at most the reason for which it is refused, and the name stays
when a newline is added. -/
theorem packageName_layout (hfile : files path.toString = some (.ofText text)) :
    (∀ files' : Files,
        files' path.toString = some (.ofText (String.ofList (Toml.addReturns text.toList))) →
          packageName files' path = packageName files path) ∧
      (∀ (files' : Files) (lines : String), MarginLines lines.toList →
        files' path.toString = some (.ofText (lines ++ text)) →
          EndsAlike path (packageName files path) (packageName files' path)) ∧
      ∀ (files' : Files) (name : String), packageName files path = .ok name →
        files' path.toString = some (.ofText (text ++ "\n")) →
          packageName files' path = .ok name := by
  rw [packageName_ofText hfile]
  refine ⟨?_, ?_, ?_⟩
  · intro files' hfile'
    rw [packageName_ofText hfile', String.toList_ofList, nameInText_addReturns]
  · intro files' lines hlines hfile'
    rw [packageName_ofText hfile', String.toList_append]
    exact nameInText_marginLines hlines text.toList
  · intro files' name hname hfile'
    rw [mapError_eq_ok] at hname
    rw [packageName_ofText hfile', String.toList_append]
    have hname' : nameInText (text.toList ++ "\n".toList) = .ok name := nameInText_newline hname
    rw [hname']
    rfl

theorem packageName_layout_lines :
    packageName (fun _ => some (.ofText "[package]\r\nname = '''\r\nn'''"))
        (.ofString "Cargo.toml") = .ok "n" ∧
      EndsAlike (.ofString "Cargo.toml")
        (packageName (fun _ => some (.ofText "[package]\r\nname = '''\nn'''"))
          (.ofString "Cargo.toml"))
        (packageName (fun _ => some (.ofText ("\t\n # é\n" ++ "[package]\r\nname = '''\nn'''")))
          (.ofString "Cargo.toml")) ∧
      packageName (fun _ => some (.ofText ("[package]\r\nname = '''\nn'''" ++ "\n")))
        (.ofString "Cargo.toml") = .ok "n" := by
  have hname : packageName (fun _ => some (.ofText "[package]\r\nname = '''\nn'''"))
      (.ofString "Cargo.toml") = .ok "n" := by decide +kernel
  have hreturned : "[package]\r\nname = '''\r\nn'''" =
      String.ofList (Toml.addReturns "[package]\r\nname = '''\nn'''".toList) := by decide +kernel
  have hcomment : ∀ c ∈ [' ', 'é'], Toml.IsPlain c := List.all_iff_forall_prop.1 (by decide)
  have hlines : MarginLines "\t\n # é\n".toList :=
    .cons (.blanks (b := ['\t']) (by decide))
      (.cons (.comment (b := [' ']) (by decide) hcomment) .nil)
  obtain ⟨hreturns, hmargin, hnewline⟩ :=
    @packageName_layout (fun _ => some (.ofText "[package]\r\nname = '''\nn'''"))
      (.ofString "Cargo.toml") "[package]\r\nname = '''\nn'''" rfl
  refine ⟨?_, hmargin _ _ hlines rfl, hnewline _ "n" hname rfl⟩
  rw [hreturned, hreturns _ rfl, hname]

end Manifest

end NuPlugin

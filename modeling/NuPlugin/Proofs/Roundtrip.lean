import NuPlugin.Proofs.Manifest
import NuPlugin.Proofs.Toml.Control
import NuPlugin.Proofs.Toml.FreshTable
import NuPlugin.Proofs.Toml.Writing

/-!
# Names written and read

A name that is written below a header of its own is read as it is, in every spelling and behind any
document without a table for it.
-/

namespace NuPlugin.Manifest

open Toml (Draft EndsText IsBlank IsPlain Line Margin Spaced Spells SpellsName Writes)

variable {d : Draft} {name : String} {literal : List Char}

/-! ## The two lines -/

def nameLines (literal : List Char) : List Char :=
  "[package]\n".toList ++ ("name = ".toList ++ (literal ++ ['\n']))

section

variable {key key' line line' stop : List Char} (hpackage : SpellsName "package".toList key)
  (hname : SpellsName "name".toList key') (hne : name.toList ≠ [])
  (hwritten : Spells name.toList literal)

include hpackage hname hne hwritten

theorem readAll_header_name (hd : d.MarksKnown) (hfree : d.root.find? "package" = none)
    (hline : Line [['['], key, [']']] line) (hline' : Line [key', ['='], literal] line')
    (hstop : EndsText stop) :
    ∃ d', d.readAll (line ++ '\n' :: (line' ++ stop)) = .ok d' ∧
      d'.root.Binds ["package", "name"] name := by
  obtain ⟨d₁, hopen, hheader, hempty, hfrozen⟩ := Draft.openTable_of_free hd hfree
  obtain ⟨d₂, hassign, hbinds⟩ := Draft.assign_of_empty hheader hempty hfrozen "name" name
  refine ⟨d₂, ?_, hbinds⟩
  rw [Draft.readAll_headerLine hpackage hline (.inr rfl) hopen, List.tail_cons,
    Draft.readAll_nameLine hwritten hne hname hline' hstop.endsLine hassign,
    Draft.readAll_endsText hstop]

end

theorem spellsName_package : SpellsName "package".toList "package".toList :=
  .bare (by decide) (List.all_eq_true.1 (by decide))

theorem spellsName_name : SpellsName "name".toList "name".toList :=
  .bare (by decide) (List.all_eq_true.1 (by decide))

theorem readAll_nameLines (hd : d.MarksKnown) (hfree : d.root.find? "package" = none)
    (hne : name.toList ≠ []) (h : Spells name.toList literal) :
    ∃ d', d.readAll (nameLines literal) = .ok d' ∧ d'.root.Binds ["package", "name"] name := by
  have hnone : IsBlank [] := by decide
  have hspace : IsBlank [' '] := by decide
  have hline : Line [['['], "package".toList, [']']] "[package]".toList :=
    ⟨_, [], .cons hnone (.cons hnone (.cons hnone .nil)), .blanks hnone, by simp⟩
  have hline' : Line ["name".toList, ['='], literal] ("name = ".toList ++ literal) :=
    ⟨_, [], .cons hnone (.cons hspace (.cons hspace .nil)), .blanks hnone, by simp⟩
  have hlines : nameLines literal =
      "[package]".toList ++ '\n' :: ("name = ".toList ++ literal ++ ['\n']) := by
    unfold nameLines
    simp only [List.append_assoc]
    rfl
  rw [hlines]
  exact readAll_header_name spellsName_package spellsName_name hne h hd hfree hline hline'
    (.inr rfl)

/-! ## Behind a document -/

section

variable {s : List Char} (hend : s = [] ∨ s.getLast? = some '\n')

include hend

theorem readAll_joinNewlines_lines {d : Draft}
    (hread : Draft.empty.readAll (Toml.joinNewlines s) = .ok d) {lines : List Char}
    (hlines : '\r' ∉ lines) :
    Draft.empty.readAll (Toml.joinNewlines (s ++ lines)) = d.readAll lines := by
  rcases hend with rfl | hend
  · cases hread
    rw [List.nil_append, Toml.joinNewlines_of_notMem hlines]
  · rw [readAll_joinNewlines_append hend hread, Toml.joinNewlines_of_notMem hlines]

theorem nameInText_of_spells {t : Toml.Table}
    (hread : Toml.readDocument (Toml.joinNewlines s) = .ok t) (hfree : t.find? "package" = none)
    (hblank : Text.isAllBlank name = false) (h : Spells name.toList literal) :
    nameInText (s ++ nameLines literal) = .ok name := by
  rw [Toml.readDocument_eq] at hread
  obtain ⟨d, hd, hroot⟩ := bind_eq_ok.1 hread
  obtain rfl := Except.ok.inj hroot
  have hne : name.toList ≠ [] := toList_ne_nil_of_isAllBlank hblank
  obtain ⟨d', hname, hbinds⟩ := readAll_nameLines (Draft.marksKnown_readAll hd) hfree hne h
  have hlines : '\r' ∉ nameLines literal := Draft.return_notMem_of_readAll hname
  have hall : Draft.empty.readAll (Toml.joinNewlines (s ++ nameLines literal)) = .ok d' := by
    rw [readAll_joinNewlines_lines hend hd hlines, hname]
  exact (nameInText_of_readAll hall).trans (nameInTable_of_binds hbinds hblank)

end

/-- A name that is not blank comes back from a manifest as it went in: under a header of its own
behind any document that has no `package` yet, and in any spelling that fits on the line. -/
theorem packageName_of_spells {files : Files} {path : Path} {first written : String}
    {t : Toml.Table} (hend : first = "" ∨ first.toList.getLast? = some '\n')
    (hread : Toml.readDocument (Toml.joinNewlines first.toList) = .ok t)
    (hfree : t.find? "package" = none) (hblank : Text.isAllBlank name = false)
    (hspells : Spells name.toList written.toList)
    (hfile : files path.toString =
      some (.ofText (first ++ "[package]\nname = " ++ written ++ "\n"))) :
    packageName files path = .ok name := by
  have hend' : first.toList = [] ∨ first.toList.getLast? = some '\n' :=
    hend.imp_left String.toList_eq_nil_iff.2
  have htext : (first ++ "[package]\nname = " ++ written ++ "\n").toList =
      first.toList ++ nameLines written.toList := by
    unfold nameLines
    simp
  rw [packageName_ofText hfile, htext, nameInText_of_spells hend' hread hfree hblank hspells]
  rfl

theorem packageName_of_spells_mixed :
    packageName
        (fun _ => some (.ofText ("a.b = [1, \x7b c = 2 \x7d] # d\r\n[[e]]\n[e.package]\n" ++
          "[package]\nname = " ++ "\"\\u00E9\\\"\\\\\\u0001\\U0001f642 é\"" ++ "\n")))
        (.ofString "Cargo.toml") =
      .ok "é\"\\\x01🙂 é" := by
  have hread : Toml.readDocument
      (Toml.joinNewlines "a.b = [1, \x7b c = 2 \x7d] # d\r\n[[e]]\n[e.package]\n".toList) =
        .ok [("a", .table [("b", .array [.scalar, .table [("c", .scalar)]])]),
          ("e", .array [.table [("package", .table [])]])] := by
    rfl
  have h0 : ('0', 0) ∈ Toml.hexDigits := by decide
  have h1 : ('1', 1) ∈ Toml.hexDigits := by decide
  have h00E9 : Toml.SpellsNumber ['0', '0', 'E', '9'] 'é'.toNat :=
    (((Toml.SpellsNumber.nil.snoc h0).snoc h0).snoc (by decide : ('E', 14) ∈ _)).snoc
      (by decide : ('9', 9) ∈ _)
  have h0001 : Toml.SpellsNumber ['0', '0', '0', '1'] '\x01'.toNat :=
    (((Toml.SpellsNumber.nil.snoc h0).snoc h0).snoc h0).snoc h1
  have h0001f642 : Toml.SpellsNumber ['0', '0', '0', '1', 'f', '6', '4', '2'] '🙂'.toNat :=
    (((h0001.snoc (by decide : ('f', 15) ∈ _)).snoc (by decide : ('6', 6) ∈ _)).snoc
      (by decide : ('4', 4) ∈ _)).snoc (by decide : ('2', 2) ∈ _)
  have hbody := Toml.SpellsBasic.nil
    |>.cons (.raw (c := 'é') (.inr (by decide)) (by decide) (by decide))
    |>.cons (.raw (c := ' ') (.inr (by decide)) (by decide) (by decide))
    |>.cons (.hex8 rfl h0001f642)
    |>.cons (.hex4 rfl h0001)
    |>.cons (.short (by decide : ('\\', '\\') ∈ Toml.shortEscapes))
    |>.cons (.short (by decide : ('"', '"') ∈ Toml.shortEscapes))
    |>.cons (.hex4 rfl h00E9)
  have hspells : Spells "é\"\\\x01🙂 é".toList
      "\"\\u00E9\\\"\\\\\\u0001\\U0001f642 é\"".toList := .basic hbody
  exact packageName_of_spells (.inr (by decide)) hread rfl (by decide) hspells rfl

/-! ## Nothing but the name -/

theorem readAll_of_writes {s : List Char} (h : Writes "package" "name" name s)
    (hne : name.toList ≠ []) :
    ∃ d, Draft.empty.readAll s = .ok d ∧ d.root.Binds ["package", "name"] name := by
  have hbinds : Toml.Table.Binds [("package", .table [("name", .text name)])] ["package", "name"]
      name := .under rfl (.here rfl)
  cases h with
  | header hpackage hname hwritten hline hline' hstop =>
    exact readAll_header_name hpackage hname hne hwritten Draft.marksKnown_empty rfl hline hline'
      hstop
  | dotted hpackage hname hwritten hline hstop =>
    have hread := Draft.readAll_dottedLine (d := Draft.empty) hwritten hne hpackage hname hline
      hstop.endsLine rfl
    rw [Draft.readAll_endsText hstop] at hread
    exact ⟨_, hread, hbinds⟩
  | inlineTable hpackage hname hwritten hline hstop =>
    have hread := Draft.readAll_inlineLine (d := Draft.empty) hwritten hne hpackage hname hline
      hstop.endsLine rfl
    rw [Draft.readAll_endsText hstop] at hread
    exact ⟨_, hread, hbinds⟩

/-- All ways to write a name that is not blank give that name: the form of its table, the spelling
of the keys and of the text, blanks and comments have no part in it. -/
theorem packageName_of_writes {files : Files} {path : Path} {text : String}
    (hwrites : Writes "package" "name" name text.toList) (hblank : Text.isAllBlank name = false)
    (hfile : files path.toString = some (.ofText text)) : packageName files path = .ok name := by
  obtain ⟨d, hread, hbinds⟩ := readAll_of_writes hwrites (toList_ne_nil_of_isAllBlank hblank)
  have hread' : Draft.empty.readAll (Toml.joinNewlines text.toList) = .ok d := by
    rwa [Toml.joinNewlines_of_notMem (Draft.return_notMem_of_readAll hread)]
  rw [packageName_ofText hfile, nameInText_of_readAll hread', nameInTable_of_binds hbinds hblank]
  rfl

theorem packageName_of_writes_forms :
    packageName (fun _ => some (.ofText
        "[\t'package' ] # é\t[\n\t\"n\\u0061me\"='n n'#\n")) (.ofString "Cargo.toml") = .ok "n n" ∧
      packageName (fun _ => some (.ofText " package\t. 'name'= 'n n' \t"))
          (.ofString "Cargo.toml") =
        .ok "n n" ∧
      packageName (fun _ => some (.ofText "'package' =\x7bname = 'n n'\t\x7d # \x7d\n"))
          (.ofString "Cargo.toml") =
        .ok "n n" := by
  have hblank : Text.isAllBlank "n n" = false := by decide
  have hwritten : Spells "n n".toList "'n n'".toList :=
    .literal (List.all_iff_forall_prop.1 (by decide))
  have hpackage' : SpellsName "package".toList "'package'".toList :=
    .quoted (.literal (List.all_iff_forall_prop.1 (by decide)))
  have hname' : SpellsName "name".toList "'name'".toList :=
    .quoted (.literal (List.all_iff_forall_prop.1 (by decide)))
  have h0061 : Toml.SpellsNumber ['0', '0', '6', '1'] 'a'.toNat :=
    (((Toml.SpellsNumber.nil.snoc (by decide : ('0', 0) ∈ _)).snoc (by decide : ('0', 0) ∈ _)).snoc
      (by decide : ('6', 6) ∈ _)).snoc (by decide : ('1', 1) ∈ _)
  have hbody := Toml.SpellsBasic.nil
    |>.cons (.raw (c := 'e') (.inr (by decide)) (by decide) (by decide))
    |>.cons (.raw (c := 'm') (.inr (by decide)) (by decide) (by decide))
    |>.cons (.hex4 rfl h0061)
    |>.cons (.raw (c := 'n') (.inr (by decide)) (by decide) (by decide))
  have hescaped : SpellsName "name".toList "\"n\\u0061me\"".toList := .quoted (.basic hbody)
  have hnone : IsBlank [] := by decide
  have hspace : IsBlank [' '] := by decide
  have htab : IsBlank ['\t'] := by decide
  have hcomment : ∀ c ∈ " é\t[".toList, IsPlain c := List.all_iff_forall_prop.1 (by decide)
  have hcomment' : ∀ c ∈ [' ', '\x7d'], IsPlain c := List.all_iff_forall_prop.1 (by decide)
  have hheader : Writes "package" "name" "n n"
      "[\t'package' ] # é\t[\n\t\"n\\u0061me\"='n n'#\n".toList :=
    .header hpackage' hescaped hwritten
      ⟨_, _, .cons hnone (.cons htab (.cons hspace .nil)),
        .comment hspace hcomment, rfl⟩
      ⟨_, _, .cons htab (.cons hnone (.cons hnone .nil)),
        .comment hnone (List.forall_mem_nil _), rfl⟩
      (.inr rfl)
  have hdotted : Writes "package" "name" "n n" " package\t. 'name'= 'n n' \t".toList :=
    .dotted spellsName_package hname' hwritten
      ⟨_, _, .cons hspace (.cons htab (.cons hspace (.cons hnone (.cons hspace .nil)))),
        .blanks (b := [' ', '\t']) (by decide), rfl⟩
      (.inl rfl)
  have hinline : Writes "package" "name" "n n"
      "'package' =\x7bname = 'n n'\t\x7d # \x7d\n".toList :=
    .inlineTable hpackage' spellsName_name hwritten
      ⟨_, _, .cons hnone (.cons hspace (.cons hnone (.cons hnone (.cons hspace (.cons hspace
        (.cons htab .nil)))))), .comment hspace hcomment', rfl⟩
      (.inr rfl)
  exact ⟨packageName_of_writes hheader hblank rfl, packageName_of_writes hdotted hblank rfl,
    packageName_of_writes hinline hblank rfl⟩

end NuPlugin.Manifest

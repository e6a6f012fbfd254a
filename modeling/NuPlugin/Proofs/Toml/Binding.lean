import NuPlugin.Proofs.Toml.Document
import NuPlugin.Proofs.Toml.Table

/-!
# Bindings in a document

Once a text is bound it stays bound, and the table that it stands in is closed to a header of its
own.
-/

namespace NuPlugin.Toml

/-! ## Guarded names -/

namespace Marks

variable {m : Marks} {names gone : List String}

/-- A name that may not be the header of a table any more, at the latest from the next header
on. -/
def Guards (m : Marks) (names : List String) : Prop :=
  names ∈ m.declared ∨ names ∈ m.pending ∨ m.isFrozen names

theorem isFrozen_iff : m.isFrozen names ↔ ∃ top ∈ m.frozen, top <+: names := by
  simp only [isFrozen, List.any_eq_true, List.isPrefixOf_iff_prefix]

theorem mem_filter_forget {marked : List (List String)} :
    names ∈ marked.filter (fun other => !gone.isPrefixOf other) ↔
      names ∈ marked ∧ ¬gone <+: names := by
  rw [List.mem_filter, Bool.not_eq_true', Bool.eq_false_iff, Ne, List.isPrefixOf_iff_prefix]

namespace Guards

theorem declare (h : m.Guards names) (other : List String) : (m.declare other).Guards names := by
  rcases h with h | h
  · exact Or.inl (List.mem_cons_of_mem other h)
  · exact Or.inr h

theorem freeze (h : m.Guards names) (other : List String) : (m.freeze other).Guards names := by
  rcases h with h | h | h
  · exact Or.inl h
  · exact Or.inr (Or.inl h)
  · obtain ⟨top, htop, htop'⟩ := isFrozen_iff.1 h
    exact Or.inr (Or.inr (isFrozen_iff.2 ⟨top, List.mem_cons_of_mem other htop, htop'⟩))

theorem await (h : m.Guards names) (others : List (List String)) :
    (m.await others).Guards names := by
  rcases h with h | h | h
  · exact Or.inl h
  · exact Or.inr (Or.inl (List.mem_append_right others h))
  · exact Or.inr (Or.inr h)

theorem settle (h : m.Guards names) : m.settle.Guards names := by
  rcases h with h | h | h
  · exact Or.inl (List.mem_append_right m.pending h)
  · exact Or.inl (List.mem_append_left m.declared h)
  · exact Or.inr (Or.inr h)

theorem forget (h : m.Guards names) (hgone : ¬gone <+: names) :
    (m.forget gone).Guards names := by
  rcases h with h | h | h
  · exact Or.inl (mem_filter_forget.2 ⟨h, hgone⟩)
  · exact Or.inr (Or.inl h)
  · obtain ⟨top, htop, htop'⟩ := isFrozen_iff.1 h
    have hkept := mem_filter_forget.2 ⟨htop, fun hg => hgone (hg.trans htop')⟩
    exact Or.inr (Or.inr (isFrozen_iff.2 ⟨top, hkept, htop'⟩))

theorem of_declare (m : Marks) (names : List String) : (m.declare names).Guards names :=
  Or.inl List.mem_cons_self

theorem of_freeze (m : Marks) {top : List String} (h : top <+: names) :
    (m.freeze top).Guards names :=
  Or.inr (Or.inr (isFrozen_iff.2 ⟨top, List.mem_cons_self, h⟩))

theorem of_await (m : Marks) {others : List (List String)} (h : names ∈ others) :
    (m.await others).Guards names :=
  Or.inr (Or.inl (List.mem_append_left m.pending h))

theorem closed (h : m.Guards names) :
    (m.settle.isDeclared names || m.settle.isFrozen names) = true := by
  rw [Bool.or_eq_true_iff]
  rcases h with h | h | h
  · exact Or.inl (List.contains_iff_mem.2 (List.mem_append_right m.pending h))
  · exact Or.inl (List.contains_iff_mem.2 (List.mem_append_left m.declared h))
  · exact Or.inr h

end Guards

end Marks

/-! ## Steps -/

namespace Draft

variable {d d' : Draft} {k : Key} {v : Value} {p names : List String} {s : String}

theorem assign_eq_ok (h : d.assign k v = .ok d') :
    Table.update (Table.add k.name v .overwritten) (d.header ++ k.path) d.root = .ok d'.root ∧
      d'.header = d.header ∧
      d'.marks = if v.isContainer then (d.marks.await (d.passed k)).freeze (d.header ++ k.names)
        else d.marks.await (d.passed k) := by
  unfold assign at h
  dsimp only at h
  split at h
  · cases h
  · split at h
    · cases h
    · obtain ⟨root, hroot, h⟩ := bind_eq_ok.1 h
      cases h
      exact ⟨hroot, rfl, rfl⟩

theorem openTable_eq_ok (h : d.openTable k = .ok d') :
    Table.update .ok k.names d.root = .ok d'.root ∧ d'.header = k.names ∧
      d'.marks = d.marks.declare k.names := by
  unfold openTable at h
  split at h
  · cases h
  · obtain ⟨root, hroot, h⟩ := bind_eq_ok.1 h
    cases h
    exact ⟨hroot, rfl, rfl⟩

theorem openElement_eq_ok (h : d.openElement k = .ok d') :
    Table.update (Table.extend k.name) k.path d.root = .ok d'.root ∧ d'.header = k.names ∧
      d'.marks = (d.marks.forget k.names).declare k.names := by
  unfold openElement at h
  split at h
  · cases h
  · obtain ⟨root, hroot, h⟩ := bind_eq_ok.1 h
    cases h
    exact ⟨hroot, rfl, rfl⟩

/-! ## Bindings are kept -/

theorem statement_binds {r rest : List Char} (hs : d.root.Binds p s)
    (h : d.statement r = .ok (d', rest)) : d'.root.Binds p s := by
  rcases statement_cases h with ⟨k, v, h⟩ | ⟨k, h⟩ | ⟨k, h⟩ | rfl
  · exact Table.keeps_update (Table.keeps_add k.name v .overwritten) _ (assign_eq_ok h).1 hs
  · exact Table.keeps_update Table.keeps_ok _ (openTable_eq_ok h).1 hs
  · exact Table.keeps_update (Table.keeps_extend k.name) _ (openElement_eq_ok h).1 hs
  · exact hs

theorem readAll_binds {r : List Char} (hs : d.root.Binds p s) (h : d.readAll r = .ok d') :
    d'.root.Binds p s :=
  readAll_keeps (P := fun d => d.root.Binds p s) statement_binds hs h

/-! ## Tables of bound texts are guarded -/

/-- The header that is open and every table in which a text is bound, the top table apart, are
closed to a header of their own. -/
structure Guarded (d : Draft) : Prop where
  header : d.header ≠ [] → d.marks.Guards d.header
  bound : ∀ {names name s}, d.root.Binds (names ++ [name]) s → names ≠ [] → d.marks.Guards names

theorem guarded_empty : empty.Guarded where
  header h := absurd rfl h
  bound h := absurd h Table.Binds.not_empty

theorem guards_assign (h : d.assign k v = .ok d') (hs : d.marks.Guards names) :
    d'.marks.Guards names := by
  obtain ⟨-, -, hmarks⟩ := assign_eq_ok h
  rw [hmarks]
  split
  · exact (hs.await _).freeze _
  · exact hs.await _

theorem mem_passed (d : Draft) (h : k.path ≠ []) : d.header ++ k.path ∈ d.passed k := by
  have hlength := List.length_pos_of_ne_nil h
  refine List.mem_map.2 ⟨k.path.length - 1, List.mem_range.2 (by omega), ?_⟩
  rw [Nat.sub_add_cancel hlength, List.take_length]

theorem guards_below (hd : d.Guarded) (h : d.assign k v = .ok d')
    (hne : d.header ++ k.path ≠ []) : d'.marks.Guards (d.header ++ k.path) := by
  by_cases hpath : k.path = []
  · rw [hpath, List.append_nil] at hne ⊢
    exact guards_assign h (hd.header hne)
  · obtain ⟨-, -, hmarks⟩ := assign_eq_ok h
    have hawait := Marks.Guards.of_await d.marks (d.mem_passed hpath)
    rw [hmarks]
    split
    · exact hawait.freeze _
    · exact hawait

theorem guarded_assign (hd : d.Guarded) (h : d.assign k v = .ok d') : d'.Guarded := by
  obtain ⟨hroot, hheader, hmarks⟩ := assign_eq_ok h
  refine ⟨fun hne => ?_, fun {names name s} hs hne => ?_⟩
  · rw [hheader] at hne ⊢
    exact guards_assign h (hd.header hne)
  · rcases Table.update_binds hroot hs with hs | ⟨q, inner, inner', hp, hadd, hbefore, hs⟩
    · exact guards_assign h (hd.bound hs hne)
    · obtain ⟨-, rfl⟩ := Table.add_eq_ok hadd
      rcases Table.binds_put hs with hs | ⟨q, rfl, ⟨rfl, rfl⟩ | ⟨table, rfl, hunder⟩⟩
      · exact absurd hs hbefore
      · obtain ⟨rfl, -⟩ := List.append_inj' hp rfl
        exact guards_below hd h hne
      · -- A text inside the value is below the key, which is frozen.
        have hbelow : d.header ++ k.names <+: names ++ [name] :=
          ⟨q, by rw [hp, Key.names]; simp⟩
        have hlength : (d.header ++ k.names).length ≤ names.length := by
          have hq := List.length_pos_of_ne_nil hunder.ne_nil
          have htotal := congrArg List.length hp
          simp only [Key.names, List.length_append, List.length_cons, List.length_nil] at htotal ⊢
          omega
        rw [hmarks]
        exact .of_freeze _
          (List.prefix_of_prefix_length_le hbelow (List.prefix_append names [name]) hlength)

theorem guarded_settle (hd : d.Guarded) : d.settle.Guarded where
  header hne := (hd.header hne).settle
  bound hs hne := (hd.bound hs hne).settle

theorem guarded_openTable (hd : d.Guarded) (h : d.openTable k = .ok d') : d'.Guarded := by
  obtain ⟨hroot, hheader, hmarks⟩ := openTable_eq_ok h
  refine ⟨fun _ => ?_, fun {names name s} hs hne => ?_⟩
  · rw [hheader, hmarks]
    exact .of_declare d.marks k.names
  · rw [hmarks]
    rcases Table.update_binds hroot hs with hs | ⟨q, inner, inner', hp, hsame, hbefore, hs⟩
    · exact (hd.bound hs hne).declare k.names
    · cases hsame
      exact absurd hs hbefore

theorem guarded_openElement (hd : d.Guarded) (h : d.openElement k = .ok d') : d'.Guarded := by
  obtain ⟨hroot, hheader, hmarks⟩ := openElement_eq_ok h
  refine ⟨fun _ => ?_, fun {names name s} hs hne => ?_⟩
  · rw [hheader, hmarks]
    exact .of_declare _ k.names
  · rw [hmarks]
    rcases Table.update_binds hroot hs with hs | ⟨q, inner, inner', hp, hextend, hbefore, hs⟩
    · -- The names that lose their marks lead to no text.
      have hgone : ¬k.names <+: names := fun hg =>
        Table.update_extend_not_binds hroot hs (hg.trans (List.prefix_append names [name]))
      exact ((hd.bound hs hne).forget hgone).declare k.names
    · exact absurd (Table.extend_binds hextend hs) hbefore

theorem guarded_statement {r rest : List Char} (hd : d.Guarded)
    (h : d.statement r = .ok (d', rest)) : d'.Guarded := by
  rcases statement_cases h with ⟨k, v, h⟩ | ⟨k, h⟩ | ⟨k, h⟩ | rfl
  · exact guarded_assign hd h
  · exact guarded_openTable (guarded_settle hd) h
  · exact guarded_openElement (guarded_settle hd) h
  · exact hd

theorem guarded_readAll {r : List Char} (h : empty.readAll r = .ok d) : d.Guarded :=
  readAll_keeps guarded_statement guarded_empty h

/-! ## A second header -/

theorem openTable_of_guards (h : d.marks.Guards k.names) :
    d.settle.openTable k = .error (.declaredTwice k.names) :=
  if_pos h.closed

theorem tableHeader_of_guards {w r rest : List Char} (hw : Seam w r)
    (hkey : Key.read (skipSpaces w) = .ok (k, rest)) (h : d.marks.Guards k.names) :
    d.settle.tableHeader (w ++ r) =
      .error (.malformed (.declaredTwice k.names) (rest ++ r)) := by
  have hwhole := (Key.read_carried (skipSpaces_seam hw) k rest hkey).2.2
  rw [tableHeader, skipSpaces_append hw, hwhole, ok_bind]
  dsimp only
  rw [openTable_of_guards h]
  rfl

theorem readAll_of_guards {w r rest : List Char} (hw : Seam w r)
    (hfirst : (w ++ r).head? ≠ some '[') (hkey : Key.read (skipSpaces w) = .ok (k, rest))
    (h : d.marks.Guards k.names) :
    d.readAll ('[' :: (w ++ r)) = .error (.malformed (.declaredTwice k.names) (rest ++ r)) := by
  have hskip : skipSpaces ('[' :: (w ++ r)) = '[' :: (w ++ r) := rfl
  rw [readAll_of_line hskip (by decide), hskip, line, statement_table d hfirst,
    tableHeader_of_guards hw hkey h]
  rfl

end Draft

end NuPlugin.Toml
